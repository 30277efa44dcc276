import Snova.Model.IdleTimers
import Snova.Properties.TimeWheel

/-!
# Who is closed by an idle timer

A callback of an idle timer is called when there has been no use for its timeout, up to the second
in which the last use is counted, or when the last use is of a later second than the reading of the
tick: the difference of the two is unsigned.  The second happens only if the tick has waited for
another callback, and then it happens to everybody who is used and still in the queue.
-/

namespace Snova.IdleTimers

variable {s s' : IdleTimers}

/-! ## The comparison -/

/-- An expired timer: its deadline has passed, or its active time is still to come. -/
lemma expired_cases {timer : TimerTask} {reading activeTime : ℕ} (hreading : reading < 2 ^ 63)
    (hactive : activeTime < 2 ^ 63)
    (h : timer.isExpired (Int64.ofNat reading) (UInt64.ofNat activeTime) = true) :
    activeTime + timer.timeoutMsecs.toNat < reading ∨ reading < activeTime := by
  have hnat : (UInt64.ofNat activeTime).toNat = activeTime :=
    UInt64.toNat_ofNat_of_lt' (lt_trans hactive (by decide))
  have hint := Int64.toInt_ofNat_of_lt hreading
  by_cases hpast : activeTime ≤ reading
  · have hdeadline := TimerTask.deadline_of_isExpired (by rw [hnat, hint]; exact_mod_cast hpast) h
    rw [hnat, hint] at hdeadline
    exact .inl (by exact_mod_cast hdeadline)
  · exact .inr (not_le.mp hpast)

/-- The difference wraps when the active time is still to come. -/
lemma isExpired_of_lt {timer : TimerTask} {reading activeTime : ℕ} (hactive : activeTime < 2 ^ 63)
    (htimeout : timer.timeoutMsecs.toNat ≤ 2 ^ 63) (h : reading < activeTime) :
    timer.isExpired (Int64.ofNat reading) (UInt64.ofNat activeTime) = true := by
  have hnat : (UInt64.ofNat activeTime).toNat = activeTime :=
    UInt64.toNat_ofNat_of_lt' (lt_trans hactive (by decide))
  have hnow : (Int64.ofNat reading).toUInt64.toNat = reading := by
    have hcases := toInt_reading (Int64.ofNat reading)
    rw [Int64.toInt_ofNat_of_lt (lt_trans h hactive)] at hcases
    omega
  have hsub := UInt64.toNat_sub (Int64.ofNat reading).toUInt64 (UInt64.ofNat activeTime)
  rw [hnat, hnow] at hsub
  simp only [TimerTask.isExpired, decide_eq_true_eq, gt_iff_lt, UInt64.lt_iff_toNat_lt]
  omega

/-! ## The invariant -/

/-- The callback of an idle timer was called for no use, or for one after the reading. -/
structure Due (c : IdleClosing) : Prop where
  reading : c.reading ≤ c.calledAt
  lastUse : c.lastUse ≤ c.calledAt
  cases : c.timer.hasActiveTime = true →
    c.lastUse / 1000 * 1000 + c.timer.timeoutMsecs.toNat < c.reading ∨
      c.reading < c.lastUse / 1000 * 1000

structure Inv (s : IdleTimers) : Prop where
  clock : s.clock < 2 ^ 63
  reading : s.reading ≤ s.clock
  lastUse : ∀ task, s.lastUse task ≤ s.clock
  run : ∀ tick ∈ s.wheel.run, tick.now = Int64.ofNat s.reading
  closings : ∀ c ∈ s.closings, Due c

lemma inv_init (slotSize : ℕ) : Inv (init slotSize) where
  clock := Nat.two_pow_pos 63
  reading := le_rfl
  lastUse _ := le_rfl
  run tick h := by cases h
  closings c hc := by cases hc

/-- `Run` goes on in a tick with the reading `reading`. -/
lemma Inv.after (h : Inv s) (wheel : WheelState) {wheel' : WheelState} {a : WheelAction}
    {reading : ℕ} (hreading : reading ≤ s.clock) (hfired : wheel.fired = s.wheel.fired)
    (htasks : wheel.tasks = s.wheel.tasks)
    (hticking : ∀ tick ∈ wheel.ticking a,
      tick.now = Int64.ofNat reading ∧ tick.active = s.activeTime)
    (hrun : ∀ tick ∈ wheel'.run, tick.now = Int64.ofNat reading)
    (hstep : wheel.step a = some wheel') : Inv (s.after reading wheel') := by
  refine ⟨h.clock, hreading, h.lastUse, hrun, fun c hc => ?_⟩
  rcases List.mem_append.mp hc with hold | hnew
  · exact h.closings c hold
  obtain ⟨f, hf, rfl⟩ := List.mem_map.mp hnew
  obtain heq | ⟨tick, htick, task, -, -, hexpired, -, heq⟩ := WheelState.step_fired hstep
  · rw [heq, hfired, List.drop_length] at hf
    cases hf
  · rw [heq, hfired, List.drop_left, List.mem_singleton] at hf
    subst hf
    obtain ⟨hnow, hactive⟩ := hticking tick htick
    refine ⟨hreading, h.lastUse task, fun hhas => ?_⟩
    have hhas' : (wheel.tasks task).hasActiveTime = true := by
      rw [htasks]
      exact hhas
    have hbound : s.lastUse task / 1000 * 1000 < 2 ^ 63 :=
      lt_of_le_of_lt ((Nat.div_mul_le_self _ _).trans (h.lastUse task)) h.clock
    rw [hnow, WheelState.activeTime, TimerTask.activeTime, if_pos hhas', hactive,
      IdleTimers.activeTime, htasks] at hexpired
    exact expired_cases (lt_of_le_of_lt hreading h.clock) hbound hexpired

lemma examine_now (now : Int64) (active : ℕ → UInt64) (queue : List ℕ) (wheel : WheelState) :
    ∀ tick ∈ (WheelState.examine now active queue wheel).run, tick.now = now := by
  intro tick htick
  obtain hnone | ⟨rest, -, hsome⟩ := WheelState.examine_run now active queue wheel
  · rw [hnone] at htick
    cases htick
  · rw [hsome] at htick
    obtain rfl := Option.some.inj htick
    rfl

lemma Inv.wait (h : Inv s) {msecs : ℕ} (hlt : s.clock + msecs < 2 ^ 63) :
    Inv { s with clock := s.clock + msecs } where
  clock := hlt
  reading := h.reading.trans (Nat.le_add_right _ _)
  lastUse task := (h.lastUse task).trans (Nat.le_add_right _ _)
  run := h.run
  closings := h.closings

/-- The wheel has been changed by `Add` or a cancel, or something has been used. -/
lemma Inv.setUse (h : Inv s) {wheel : WheelState} {task lastUse : ℕ}
    (hrun : wheel.run = s.wheel.run) (hle : lastUse ≤ s.clock) :
    Inv { s with wheel := wheel, lastUse := Function.update s.lastUse task lastUse } where
  clock := h.clock
  reading := h.reading
  lastUse other := by
    show Function.update s.lastUse task lastUse other ≤ s.clock
    by_cases hother : other = task
    · rw [hother, Function.update_self]
      exact hle
    · rw [Function.update_of_ne hother]
      exact h.lastUse other
  run tick htick := h.run tick (hrun ▸ htick)
  closings := h.closings

lemma step_inv {a : IdleAction} (h : Inv s) (hstep : step s a = some s') : Inv s' := by
  cases a with
  | wait msecs =>
      simp only [step, Option.ite_none_right_eq_some, Option.some_inj] at hstep
      exact hstep.2 ▸ h.wait hstep.1
  | add timeoutMsecs hasActiveTime lastUse =>
      simp only [step, Option.ite_none_right_eq_some] at hstep
      obtain ⟨hle, hstep⟩ := hstep
      obtain ⟨wheel, hwheel, rfl⟩ := Option.map_eq_some_iff.mp hstep
      obtain rfl := Option.some.inj hwheel
      exact h.setUse rfl hle
  | use task =>
      obtain rfl := Option.some.inj hstep
      exact h.setUse rfl le_rfl
  | cancel task =>
      obtain ⟨wheel, hwheel, rfl⟩ := Option.map_eq_some_iff.mp hstep
      simp only [WheelState.step, Option.ite_none_right_eq_some, Option.some_inj] at hwheel
      obtain ⟨-, rfl⟩ := hwheel
      exact ⟨h.clock, h.reading, h.lastUse, h.run, h.closings⟩
  | tick =>
      obtain ⟨wheel, hwheel, rfl⟩ := Option.map_eq_some_iff.mp hstep
      refine h.after s.wheel le_rfl rfl rfl ?_ ?_ hwheel
      · rintro tick htick
        obtain rfl := Option.some.inj htick
        exact ⟨rfl, rfl⟩
      · simp only [WheelState.step] at hwheel
        split at hwheel
        · obtain rfl := Option.some.inj hwheel
          exact examine_now _ _ _ _
        · cases hwheel
  | resume =>
      obtain ⟨wheel, hwheel, rfl⟩ := Option.map_eq_some_iff.mp hstep
      have hticking : ∀ tick ∈ s.refresh.ticking .resume,
          tick.now = Int64.ofNat s.reading ∧ tick.active = s.activeTime := by
        intro tick htick
        obtain ⟨old, hold, rfl⟩ := Option.map_eq_some_iff.mp htick
        exact ⟨h.run old hold, rfl⟩
      refine h.after s.refresh h.reading rfl rfl hticking ?_ hwheel
      simp only [WheelState.step] at hwheel
      split at hwheel
      · next tick hrun =>
          obtain rfl := Option.some.inj hwheel
          rw [← (hticking tick hrun).1]
          exact examine_now _ _ _ _
      · cases hwheel

/-! ## The callbacks -/

/-- Somebody used behind the reading of the tick that comes to its task. -/
lemma Inv.overtaken (h : Inv s) {tick : WheelTick} {task : ℕ} {rest : List ℕ}
    (hrun : s.wheel.run = some tick) (hqueue : tick.queue = task :: rest)
    (hlive : (s.wheel.tasks task).canceled = false)
    (hhas : (s.wheel.tasks task).hasActiveTime = true)
    (htimeout : (s.wheel.tasks task).timeoutMsecs.toNat ≤ 2 ^ 63)
    (hlater : s.reading < s.lastUse task / 1000 * 1000) :
    ∃ s', step s .resume = some s' ∧ s'.closings = s.closings ++
      [⟨task, s.wheel.tasks task, s.reading, s.lastUse task, s.clock⟩] := by
  have hbound : s.lastUse task / 1000 * 1000 < 2 ^ 63 :=
    lt_of_le_of_lt ((Nat.div_mul_le_self _ _).trans (h.lastUse task)) h.clock
  have hexpired : (s.wheel.tasks task).isExpired tick.now
      ((s.wheel.tasks task).activeTime (s.activeTime task)) = true := by
    rw [h.run tick hrun, TimerTask.activeTime, if_pos hhas]
    exact isExpired_of_lt hbound htimeout hlater
  have hnot : ¬ (s.refresh.tasks task).canceled = true := by
    show ¬ (s.wheel.tasks task).canceled = true
    rw [hlive]
    exact Bool.false_ne_true
  have hdue : (s.refresh.tasks task).isExpired tick.now
      (s.refresh.activeTime s.activeTime task) = true := hexpired
  have hwheel : s.refresh.step .resume =
      some (WheelState.examine tick.now s.activeTime (task :: rest) s.refresh) := by
    simp only [WheelState.step, refresh, hrun, Option.map_some, hqueue]
  have hstep : step s .resume = some
      (s.after s.reading (WheelState.examine tick.now s.activeTime (task :: rest) s.refresh)) := by
    rw [step, hwheel, Option.map_some]
  refine ⟨_, hstep, ?_⟩
  have hfired : (WheelState.examine tick.now s.activeTime (task :: rest) s.refresh).fired =
      s.wheel.fired ++ [⟨task, tick.now, s.refresh.activeTime s.activeTime task⟩] := by
    rw [WheelState.examine, if_neg hnot, if_pos hdue]
    rfl
  rw [IdleTimers.after, hfired, List.drop_left]
  rfl

/-- **What an idle timer closes.**  Tasks are added to the wheel and cancelled, what they are for is
used, and ticks take their readings and wait in callbacks, in any order on one clock.  Whenever the
callback of a task with a `get_active_time` is called:

* the last use, taken down to its second, and the timeout are before the reading of the tick, or the
  last use is of a second behind that reading;
* the latter needs a tick that has waited into another second.

And a tick that has waited so closes whatever comes next in its queue and has been used in that
second. -/
theorem closed_idle_or_overtaken (slotSize : ℕ) (as : List IdleAction) (s : IdleTimers)
    (h : exec step (init slotSize) as = some s) :
    (∀ c ∈ s.closings, c.timer.hasActiveTime = true →
      (c.reading ≤ c.calledAt ∧ c.lastUse ≤ c.calledAt) ∧
        (c.lastUse / 1000 * 1000 + c.timer.timeoutMsecs.toNat < c.reading ∨
          c.reading < c.lastUse / 1000 * 1000) ∧
        (c.calledAt / 1000 = c.reading / 1000 →
          c.lastUse / 1000 * 1000 + c.timer.timeoutMsecs.toNat < c.reading)) ∧
      ∀ tick task rest, s.wheel.run = some tick → tick.queue = task :: rest →
        (s.wheel.tasks task).canceled = false → (s.wheel.tasks task).hasActiveTime = true →
        (s.wheel.tasks task).timeoutMsecs.toNat ≤ 2 ^ 63 →
        s.reading < s.lastUse task / 1000 * 1000 →
        ∃ s', step s .resume = some s' ∧ s'.closings = s.closings ++
          [⟨task, s.wheel.tasks task, s.reading, s.lastUse task, s.clock⟩] := by
  have hinv := exec_invariant (fun _ _ _ hs hstep => step_inv hs hstep) (inv_init slotSize) h
  refine ⟨fun c hc hhas => ?_, fun tick task rest hrun hqueue hlive hhas htimeout hlater =>
    hinv.overtaken hrun hqueue hlive hhas htimeout hlater⟩
  obtain ⟨hreading, hlastUse, hcases⟩ := hinv.closings c hc
  refine ⟨⟨hreading, hlastUse⟩, hcases hhas, fun hsame => (hcases hhas).resolve_right ?_⟩
  -- the last use is not of a later second than the call
  have hsecond : c.lastUse / 1000 ≤ c.reading / 1000 := hsame ▸ Nat.div_le_div_right hlastUse
  omega

/-- Two relays have been idle for the same time.  While the tick closes the first one, the other one
is used. -/
def busyRun : List IdleAction :=
  [.wait 10000, .add 5000 true 10000, .add 5000 true 10000, .wait 5005, .tick, .wait 1500, .use 1,
    .resume]

theorem closed_idle_or_overtaken_busy :
    ∃ s, exec step (init 128) busyRun = some s ∧
      s.closings.map (fun c => (c.task, c.reading, c.lastUse, c.calledAt)) =
        [(0, 15005, 10000, 15005), (1, 15005, 16505, 16505)] ∧
      ∀ c ∈ s.closings, c.timer.hasActiveTime = true →
        c.lastUse / 1000 * 1000 + c.timer.timeoutMsecs.toNat < c.reading ∨
          c.reading < c.lastUse / 1000 * 1000 := by
  have hrun : (exec step (init 128) busyRun).map (fun s =>
      s.closings.map fun c => (c.task, c.reading, c.lastUse, c.calledAt)) =
        some [(0, 15005, 10000, 15005), (1, 15005, 16505, 16505)] := by decide +kernel
  obtain ⟨s, hs, hclosings⟩ := Option.map_eq_some_iff.mp hrun
  obtain ⟨hidle, -⟩ := closed_idle_or_overtaken 128 busyRun s hs
  exact ⟨s, hs, hclosings, fun c hc hhas => (hidle c hc hhas).2.1⟩

end Snova.IdleTimers
