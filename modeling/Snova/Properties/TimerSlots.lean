import Snova.Properties.TimeWheel

/-!
# Which slots the readings fall into

A tick looks at the one slot of its reading, and some ten slots pass between two ticks.  A task that
expires is gone when a reading falls into the slot it waits in, and a slot may be passed over for
ever (`expired_task_passed_over`).

What a task meets on its way are the readings of the ticks and its own active times (`sightings`),
and these say in which slot it waits (`waitsIn`), whatever else is in the wheel.
-/

namespace Snova

namespace WheelState

variable {s s' : WheelState}

/-! ## One task and the readings -/

/-- The ticks before the cancel of a task: their readings, with the active times of the task. -/
def sightings (task : ℕ) (timer : TimerTask) : List WheelAction → List (Int64 × UInt64)
  | [] => []
  | .tick now active :: as => (now, timer.activeTime (active task)) :: sightings task timer as
  | .cancel other :: as => if other = task then [] else sightings task timer as
  | _ :: as => sightings task timer as

/-- Where a task waits that was put into slot `k`.  A reading that falls into its slot takes it to
the slot of its deadline and 100 ms. -/
def waitsIn (slotSize : ℕ) (timer : TimerTask) (k : ℕ) : List (Int64 × UInt64) → ℕ
  | [] => k
  | (now, active) :: ticks =>
      waitsIn slotSize timer
        (if getIdxByMillsecs slotSize now.toUInt64 = k then
          getIdxByMillsecs slotSize (active + timer.timeoutMsecs + 100)
        else k) ticks

/-- The deadline of a task in a tick. -/
def deadline (timer : TimerTask) (tick : Int64 × UInt64) : ℕ :=
  tick.2.toNat + timer.timeoutMsecs.toNat

/-- The readings visit the slots of a task.  Its active times do not go back, and when the readings
get more than two revolutions of 10 ms slots past a deadline of the task, one of those in the two
revolutions has fallen into the slot in which the task waited. -/
structure Visited (slotSize : ℕ) (timer : TimerTask) (k : ℕ) (ticks : List (Int64 × UInt64)) :
    Prop where
  forward : ∀ i j : Fin ticks.length, i < j → (ticks.get i).2.toNat ≤ (ticks.get j).2.toNat
  visited : ∀ i : Fin ticks.length,
    (deadline timer (ticks.get i) + 2 * (slotSize * 10) : ℤ) < (ticks.get i).1.toInt →
      ∃ j : Fin ticks.length, j < i ∧
        (deadline timer (ticks.get i) : ℤ) < (ticks.get j).1.toInt ∧
        (ticks.get j).1.toInt ≤ deadline timer (ticks.get i) + 2 * (slotSize * 10) ∧
        getIdxByMillsecs slotSize (ticks.get j).1.toUInt64 =
          waitsIn slotSize timer k (ticks.take j)

lemma waitsIn_append (slotSize : ℕ) (timer : TimerTask) (k : ℕ)
    (ticks later : List (Int64 × UInt64)) :
    waitsIn slotSize timer k (ticks ++ later) =
      waitsIn slotSize timer (waitsIn slotSize timer k ticks) later := by
  induction ticks generalizing k with
  | nil => rfl
  | cons tick ticks ih => exact ih _

/-- The task has not been found expired. -/
def Unexpired (slotSize : ℕ) (timer : TimerTask) (k : ℕ) (ticks : List (Int64 × UInt64)) : Prop :=
  ∀ done tick rest, ticks = done ++ tick :: rest →
    getIdxByMillsecs slotSize tick.1.toUInt64 = waitsIn slotSize timer k done →
    timer.isExpired tick.1 tick.2 = false

lemma Unexpired.concat {slotSize k : ℕ} {timer : TimerTask} {ticks : List (Int64 × UInt64)}
    {tick : Int64 × UInt64} (h : Unexpired slotSize timer k ticks)
    (htick : getIdxByMillsecs slotSize tick.1.toUInt64 = waitsIn slotSize timer k ticks →
      timer.isExpired tick.1 tick.2 = false) : Unexpired slotSize timer k (ticks ++ [tick]) := by
  intro done other rest hsplit hslot
  rcases List.eq_nil_or_concat rest with rfl | ⟨rest, last, rfl⟩
  · obtain ⟨rfl, heq⟩ := List.append_inj' hsplit rfl
    obtain rfl := List.singleton_inj.mp heq
    exact htick hslot
  · rw [List.concat_eq_append, ← List.cons_append, ← List.append_assoc] at hsplit
    exact h done other rest (List.append_inj' hsplit rfl).1 hslot

/-- A reading that does not find the task expired is not two revolutions late. -/
lemma Visited.not_late {slotSize k : ℕ} {timer : TimerTask} {done later : List (Int64 × UInt64)}
    {tick : Int64 × UInt64} (h : Visited slotSize timer k (done ++ tick :: later))
    (hdone : Unexpired slotSize timer k done) :
    tick.1.toInt ≤ deadline timer tick + 2 * (slotSize * 10) := by
  by_contra hlate
  have hlt : done.length < (done ++ tick :: later).length := by
    rw [List.length_append, List.length_cons]
    omega
  have hget : (done ++ tick :: later).get ⟨done.length, hlt⟩ = tick := by simp
  obtain ⟨j, hj, hpast, -, hslot⟩ := h.visited ⟨done.length, hlt⟩ (by rw [hget]; omega)
  have hforward := h.forward j ⟨done.length, hlt⟩ hj
  rw [hget] at hpast hforward
  have hj' : j.val < done.length := hj
  have hgetj : (done ++ tick :: later).get j = done[j.val] := by
    rw [List.get_eq_getElem, List.getElem_append_left hj']
  rw [hgetj] at hpast hforward hslot
  rw [List.take_append_of_le_length hj'.le] at hslot
  have hsplit : done = done.take j ++ done[j.val] :: done.drop (j + 1) := by
    rw [List.getElem_cons_drop, List.take_append_drop]
  have hunexpired := TimerTask.deadline_of_not_isExpired (hdone _ _ _ hsplit hslot)
  rw [deadline] at hpast
  push_cast at hpast
  omega

/-- A task whose slots are visited is reached. -/
lemma reached_of_visited {slotSize task k : ℕ} {timer : TimerTask} {as : List WheelAction}
    {done : List (Int64 × UInt64)}
    (h : Visited slotSize timer k (done ++ sightings task timer as))
    (hdone : Unexpired slotSize timer k done) :
    Reached slotSize task timer (waitsIn slotSize timer k done) as := by
  induction as generalizing done with
  | nil => trivial
  | cons a as ih =>
      cases a with
      | tick now active =>
          have hnext : ∀ htick : getIdxByMillsecs slotSize now.toUInt64 =
                waitsIn slotSize timer k done →
              timer.isExpired now (timer.activeTime (active task)) = false,
              Reached slotSize task timer (waitsIn slotSize timer k
                (done ++ [(now, timer.activeTime (active task))])) as := by
            intro htick
            refine ih ?_ (hdone.concat htick)
            rw [List.append_assoc]
            exact h
          rw [waitsIn_append] at hnext
          rw [Reached]
          split
          · next hslot =>
              cases hexpired : timer.isExpired now (timer.activeTime (active task)) with
              | true => exact .inl rfl
              | false =>
                  have hreached := hnext fun _ => hexpired
                  rw [waitsIn, if_pos hslot] at hreached
                  exact .inr hreached
          · next hslot =>
              have hreached := hnext fun heq => absurd heq hslot
              rw [waitsIn, if_neg hslot] at hreached
              have hlate := Visited.not_late h hdone
              rw [deadline] at hlate
              push_cast at hlate
              exact ⟨hlate, hreached⟩
      | cancel other =>
          rw [Reached]
          by_cases hother : other = task
          · exact .inl hother
          · rw [sightings, if_neg hother] at h
            exact .inr (ih h hdone)
      | add now timeoutMsecs hasActiveTime => exact ih h hdone
      | resume => exact ih h hdone

/-! ## A run -/

/-- The slots of every task are visited.  Tasks are numbered from `task` on. -/
def AllVisited (slotSize : ℕ) : ℕ → List WheelAction → Prop
  | _, [] => True
  | task, .add now timeoutMsecs hasActiveTime :: as =>
      let timer : TimerTask :=
        ⟨TimerTask.registeredTimeout timeoutMsecs, now.toUInt64, hasActiveTime, false⟩
      Visited slotSize timer (getIdxByMillsecs slotSize (now.toUInt64 + timer.timeoutMsecs))
          (sightings task timer as) ∧
        AllVisited slotSize (task + 1) as
  | task, _ :: as => AllVisited slotSize task as

/-- A task that is added while a tick waits in a callback is added behind the reading of that tick
and has not expired yet. -/
def AddedFresh (s : WheelState) : WheelAction → Prop
  | .add now timeoutMsecs hasActiveTime => ∀ tick ∈ s.run, tick.now.toInt ≤ now.toInt ∧
      (hasActiveTime = true → now.toInt ≤ (tick.active s.added).toNat +
        (TimerTask.registeredTimeout timeoutMsecs).toNat)
  | _ => True

lemma le_toNat_reading (now : Int64) : now.toInt ≤ now.toUInt64.toNat := by
  rcases toInt_reading now with h | h
  · exact h.1.le
  · omega

lemma AddedFresh.notOverdue {now : Int64} {timeoutMsecs : UInt64} {hasActiveTime : Bool}
    (h : s.AddedFresh (.add now timeoutMsecs hasActiveTime)) :
    ∀ tick ∈ s.run,
      (s.doRegister now timeoutMsecs hasActiveTime).NotOverdue tick.now tick.active s.added := by
  intro tick htick
  obtain ⟨hclock, hactive⟩ := h tick htick
  simp only [NotOverdue, activeTime, doRegister, emplaceBack, Function.update_self,
    TimerTask.activeTime]
  cases hasActiveTime with
  | true =>
      have hle := hactive rfl
      rw [if_pos rfl]
      omega
  | false =>
      have hle := le_toNat_reading now
      rw [if_neg Bool.false_ne_true]
      omega

lemma step_numbers {a : WheelAction} (hstep : s.step a = some s') :
    s'.slotSize = s.slotSize ∧
      ((∀ now timeoutMsecs hasActiveTime, a ≠ .add now timeoutMsecs hasActiveTime) →
        s'.added = s.added) := by
  obtain ⟨now, timeoutMsecs, hasActiveTime, rfl, rfl⟩ | ⟨task, rfl, rfl⟩ |
    ⟨now, active, rfl, hrun, rfl⟩ | ⟨tick, rfl, hrun, rfl⟩ := step_cases hstep
  · exact ⟨rfl, fun h => absurd rfl (h now timeoutMsecs hasActiveTime)⟩
  · exact ⟨rfl, fun _ => rfl⟩
  · obtain ⟨hsize, -, hadded, -⟩ := examine_spec now active
      (s.timeWheel (getIdxByMillsecs s.slotSize now.toUInt64))
      (s.takeSlot (getIdxByMillsecs s.slotSize now.toUInt64))
    exact ⟨hsize, fun _ => hadded⟩
  · obtain ⟨hsize, -, hadded, -⟩ := examine_spec tick.now tick.active tick.queue s
    exact ⟨hsize, fun _ => hadded⟩

lemma allReached_of_allVisited {as : List WheelAction}
    (hvisited : AllVisited s.slotSize s.added as) (hfresh : Along step AddedFresh s as) :
    s.AllReached as := by
  induction as generalizing s with
  | nil => trivial
  | cons a as ih =>
      obtain ⟨hfirst, hrest⟩ := hfresh
      cases a with
      | add now timeoutMsecs hasActiveTime =>
          refine ⟨?_, fun s' hstep => ih ?_ (hrest s' hstep)⟩
          · rintro _ _ _ ⟨⟩
            refine ⟨hfirst.notOverdue, ?_⟩
            have hreached : Reached _ _ _ (waitsIn _ _ _ []) _ :=
              reached_of_visited hvisited.1 fun done tick rest hnil => by simp at hnil
            simpa [doRegister, emplaceBack, waitsIn] using hreached
          · obtain rfl := Option.some.inj hstep
            exact hvisited.2
      | _ =>
          refine ⟨fun _ _ _ h => (by cases h), fun s' hstep => ih ?_ (hrest s' hstep)⟩
          obtain ⟨hsize, hadded⟩ := step_numbers hstep
          rw [hsize, hadded (fun _ _ _ h => by cases h)]
          exact hvisited

/-- **An expired timer does not stay in the wheel when the readings visit its slots.**  In every run
in which they do, and in which a task that is added while a tick waits in a callback has not expired
yet, no uncancelled task of the wheel is more than two revolutions past its deadline, after each
step of a tick, whether it is over or waits in a callback. -/
theorem expired_tasks_gone (slotSize : ℕ) (hsize : 0 < slotSize) (as : List WheelAction)
    (a : WheelAction) (s s' : WheelState) (hvisited : AllVisited slotSize 0 (as ++ [a]))
    (hfresh : Along step AddedFresh (init slotSize) (as ++ [a]))
    (h : exec step (init slotSize) as = some s) (hstep : s.step a = some s') :
    ∀ tick ∈ s.ticking a, s'.NoneOverdue tick.now tick.active :=
  noneOverdue_of_allReached hsize (allReached_of_allVisited hvisited hfresh) h hstep

/-- The first timer fires, the second one has been active and fires in the slot of its deadline and
100 ms.  Both are gone when the clock is far behind. -/
def visitingRun : List WheelAction :=
  [.add 1000 20 false, .add 1000 20 true, .tick 1029 fun _ => 1015, .resume,
    .tick 1135 fun _ => 1015, .resume]

theorem expired_tasks_gone_two_tasks :
    ∃ s s', exec step (init 128) visitingRun = some s ∧
      s.step (.tick 4000 fun _ => 1015) = some s' ∧ (s'.starts 0 = 1 ∧ s'.starts 1 = 1) ∧
      s'.NoneOverdue 4000 fun _ => 1015 := by
  have hvisited : AllVisited 128 0 (visitingRun ++ [.tick 4000 fun _ => 1015]) :=
    ⟨⟨by decide, by decide⟩, ⟨by decide, by decide⟩, trivial⟩
  have hfresh : Along step AddedFresh (init 128) (visitingRun ++ [.tick 4000 fun _ => 1015]) :=
    .cons (fun tick htick => by cases htick) rfl (.cons (fun tick htick => by cases htick) rfl
      (.cons trivial rfl (.cons trivial rfl (.cons trivial rfl (.cons trivial rfl
        (.cons trivial rfl trivial))))))
  have hrun : ((exec step (init 128) visitingRun).bind fun s =>
      (s.step (.tick 4000 fun _ => 1015)).map fun s' => (s'.starts 0, s'.starts 1)) =
        some (1, 1) := by decide
  obtain ⟨s, hs, hrun⟩ := Option.bind_eq_some_iff.mp hrun
  obtain ⟨s', hs', hstarts⟩ := Option.map_eq_some_iff.mp hrun
  have hnone := expired_tasks_gone 128 (by decide) visitingRun (.tick 4000 fun _ => 1015) s s'
    hvisited hfresh hs hs' ⟨4000, fun _ => 1015, _⟩ rfl
  exact ⟨s, s', hs, hs', Prod.mk.inj hstarts, hnone⟩

/-- Ticks pass over a slot that none of their readings falls into. -/
lemma exec_ticks_pass_over {k : ℕ} (hrun : s.run = none) (hempty : ∀ j ≠ k, s.timeWheel j = [])
    (active : ℕ → UInt64) (readings : List Int64)
    (hreadings : ∀ now ∈ readings, getIdxByMillsecs s.slotSize now.toUInt64 ≠ k) :
    exec step s (readings.map fun now => .tick now active) = some s := by
  induction readings with
  | nil => rfl
  | cons now readings ih =>
      have hslot := hempty _ (hreadings now List.mem_cons_self)
      have hsame : s.takeSlot (getIdxByMillsecs s.slotSize now.toUInt64) = s := by
        rw [takeSlot, ← hslot, Function.update_eq_self]
      have hstep : s.step (.tick now active) = some s := by
        simp only [step, hrun, hslot, hsame, examine]
        rw [← hrun]
      rw [List.map_cons, exec_cons_of_step hstep]
      exact ih fun n hn => hreadings n (List.mem_cons_of_mem _ hn)

/-- The readings of `n` ticks 100 ms apart. -/
def every100 (now : Int64) (n : ℕ) : List Int64 :=
  (List.range n).map fun i => now + 100 * Int64.ofNat i

/-- A timer of 15 ms, added at 1000 ms, waits in slot 101.  Ticks every 100 ms read the even
slots only: at 3600 ms the timer is 2585 ms past its deadline and has not been examined. -/
theorem expired_task_passed_over :
    ∃ s, exec step (init 128) (.add 1000 15 false ::
        (every100 1100 26).map fun now => .tick now fun _ => 0) = some s ∧
      (every100 1100 26).getLast? = some 3600 ∧ ¬ s.NoneOverdue 3600 (fun _ => 0) := by
  have hempty : ∀ j ≠ 101, ((init 128).doRegister 1000 15 false).timeWheel j = [] :=
    fun j hj => Function.update_of_ne hj _ _
  have hreadings : ∀ now ∈ every100 1100 26, getIdxByMillsecs 128 now.toUInt64 ≠ 101 := by
    have hall : (every100 1100 26).all
        (fun now => getIdxByMillsecs 128 now.toUInt64 != 101) = true := by rfl
    simpa using hall
  refine ⟨(init 128).doRegister 1000 15 false, ?_, by decide, ?_⟩
  · rw [exec_cons_of_step rfl]
    exact exec_ticks_pass_over rfl hempty _ _ hreadings
  · intro h
    have hnot := h 101 (by decide) 0 (by exact List.mem_singleton_self _) (by decide)
    revert hnot
    rw [NotOverdue]
    decide

end WheelState

end Snova
