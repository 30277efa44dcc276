import Snova.Framework.Buckets
import Snova.Framework.Exec
import Mathlib.Data.UInt

/-!
# The time wheel

`TimeWheel` (`snova/util/time_wheel.{h,cc}`): the timeouts of streams, DNS queries and retired
connections.  A task is registered in the slot of its deadline.  `Run` takes a reading of the
clock every 99 ms, takes the slot of that reading out of the wheel, and goes through its tasks:
a cancelled one is dropped, the callback of an expired one is called, and any other goes back
into the wheel.  `Run` suspends in the callbacks, and `Add` and the cancel functions may be called
meanwhile.

A task is a number here, in the order of registration.  A clock reading is the signed count
`time_since_epoch` gives; the arithmetic with it is unsigned, as `timeout_msecs` and the active
times are.  What `get_active_time` returns in a tick is brought along by the tick: every task is
examined at most once in it.
-/

namespace Snova

/-- `TimerTask`, without its callback. -/
structure TimerTask where
  timeoutMsecs : UInt64
  createTime : UInt64
  -- whether `get_active_time` is set
  hasActiveTime : Bool
  canceled : Bool := false

/-- A tick that is suspended in a callback: its reading, the active times, and
the part of `routine_queue` that has not been examined yet. -/
structure WheelTick where
  now : Int64
  active : ℕ → UInt64
  queue : List ℕ

/-- The call of a timeout callback: its task, the reading of the tick, and the active time of the
task. -/
structure Firing where
  task : ℕ
  now : Int64
  activeTime : UInt64

structure WheelState where
  -- `time_wheel_.size()`
  slotSize : ℕ
  timeWheel : ℕ → List ℕ
  tasks : ℕ → TimerTask
  -- how many tasks have been registered
  added : ℕ
  run : Option WheelTick
  fired : List Firing

inductive WheelAction
  | add (now : Int64) (timeoutMsecs : UInt64) (hasActiveTime : Bool)
  | cancel (task : ℕ)
  -- `Run` takes a reading
  | tick (now : Int64) (active : ℕ → UInt64)
  -- the callback `Run` waits for returns
  | resume

/-- `TimeWheel::GetIdxByMillsecs`. -/
def getIdxByMillsecs (slotSize : ℕ) (ms : UInt64) : ℕ := (ms.toNat / 10) % slotSize

namespace TimerTask

/-- `timeout_msecs` as `DoRegister` leaves it. -/
def registeredTimeout (timeoutMsecs : UInt64) : UInt64 :=
  if timeoutMsecs = 0 then 500 else timeoutMsecs

/-- `active_time` of a task in a tick. -/
def activeTime (task : TimerTask) (active : UInt64) : UInt64 :=
  if task.hasActiveTime then active else task.createTime

/-- `now - active_time > task->timeout_msecs`. -/
def isExpired (task : TimerTask) (now : Int64) (activeTime : UInt64) : Bool :=
  now.toUInt64 - activeTime > task.timeoutMsecs

end TimerTask

namespace WheelState

def init (slotSize : ℕ) : WheelState where
  slotSize := slotSize
  timeWheel := fun _ => []
  tasks := fun _ => ⟨0, 0, false, false⟩
  added := 0
  run := none
  fired := []

/-- `time_wheel_[idx].emplace_back(task)`. -/
def emplaceBack (s : WheelState) (idx task : ℕ) : WheelState :=
  { s with timeWheel := Function.update s.timeWheel idx (s.timeWheel idx ++ [task]) }

/-- `TimeWheel::DoRegister`, with a new task. -/
def doRegister (s : WheelState) (now : Int64) (timeoutMsecs : UInt64) (hasActiveTime : Bool) :
    WheelState :=
  let timeoutMsecs := TimerTask.registeredTimeout timeoutMsecs
  let task : TimerTask := ⟨timeoutMsecs, now.toUInt64, hasActiveTime, false⟩
  { s with
    tasks := Function.update s.tasks s.added task
    added := s.added + 1 }.emplaceBack
      (getIdxByMillsecs s.slotSize (now.toUInt64 + timeoutMsecs)) s.added

/-- The function `DoRegister` returns. -/
def cancel (s : WheelState) (task : ℕ) : WheelState :=
  { s with tasks := Function.update s.tasks task { s.tasks task with canceled := true } }

/-- The active time of a task in a tick. -/
def activeTime (s : WheelState) (active : ℕ → UInt64) (task : ℕ) : UInt64 :=
  (s.tasks task).activeTime (active task)

/-- The loop of `Run` over `routine_queue`, up to a callback or to its end. -/
def examine (now : Int64) (active : ℕ → UInt64) : List ℕ → WheelState → WheelState
  | [], s => { s with run := none }
  | task :: queue, s =>
      if (s.tasks task).canceled then examine now active queue s
      else if (s.tasks task).isExpired now (s.activeTime active task) then
        { s with
          run := some ⟨now, active, queue⟩
          fired := s.fired ++ [⟨task, now, s.activeTime active task⟩] }
      else
        examine now active queue (s.emplaceBack (getIdxByMillsecs s.slotSize
          (s.activeTime active task + (s.tasks task).timeoutMsecs + 100)) task)

/-- `routine_queue = std::move(time_wheel_[idx])`; with an empty slot the tick is over. -/
def takeSlot (s : WheelState) (idx : ℕ) : WheelState :=
  { s with timeWheel := Function.update s.timeWheel idx [] }

def step (s : WheelState) : WheelAction → Option WheelState
  | .add now timeoutMsecs hasActiveTime => some (s.doRegister now timeoutMsecs hasActiveTime)
  | .cancel task => if task < s.added then some (s.cancel task) else none
  | .tick now active =>
      match s.run with
      | none =>
          let idx := getIdxByMillsecs s.slotSize now.toUInt64
          some ((s.takeSlot idx).examine now active (s.timeWheel idx))
      | some _ => none
  | .resume =>
      match s.run with
      | some tick => some (s.examine tick.now tick.active tick.queue)
      | none => none

/-- The tasks in the wheel, and those the tick in progress has still to examine. -/
def waiting (s : WheelState) : List ℕ :=
  contents s.slotSize s.timeWheel ++ (s.run.map WheelTick.queue).getD []

end WheelState

end Snova
