import Snova.Model.TimeWheel

/-!
# Idle timers

The tasks of `TimeWheel` that have a `get_active_time`: the timer of a relay (`do_relay`,
`snova/server/relay.cc`), and that of a retired connection (`snova/mux/mux_client.cc`,
`snova/server/mux_server.cc`).  They give the wheel the second of the last use in milliseconds:
`latest_io_time` of the relay, or `GetLastActiveUnixSecs` of the connection.

`Run` reads the clock once in a tick, and asks a task for its active time when it comes to it.  In
between it may have to wait for the callback of another task: `Close` of a stream writes an event.
Meanwhile the clock goes on, and streams and connections are used.

Readings and seconds are those of one clock, which is not set back.  The seconds have no bound here;
a connection keeps them as a `uint32_t`.
-/

namespace Snova

/-- The call of a timeout callback, with its task as it was. -/
structure IdleClosing where
  task : ℕ
  timer : TimerTask
  -- what `Run` has read, the last use, and the time of the call
  reading : ℕ
  lastUse : ℕ
  calledAt : ℕ

structure IdleTimers where
  wheel : WheelState
  -- in milliseconds, and the reading of the latest tick
  clock : ℕ
  reading : ℕ
  -- when what a task is for was used last
  lastUse : ℕ → ℕ
  closings : List IdleClosing

inductive IdleAction
  | wait (msecs : ℕ)
  -- `Add`, for something used at `lastUse`
  | add (timeoutMsecs : UInt64) (hasActiveTime : Bool) (lastUse : ℕ)
  -- `transfer_routine` of a relay; a write or a read of a connection
  | use (task : ℕ)
  | cancel (task : ℕ)
  | tick
  | resume

namespace IdleTimers

def init (slotSize : ℕ) : IdleTimers := ⟨.init slotSize, 0, 0, fun _ => 0, []⟩

/-- What `get_active_time` returns now. -/
def activeTime (s : IdleTimers) (task : ℕ) : UInt64 :=
  UInt64.ofNat (s.lastUse task / 1000 * 1000)

/-- `Run` has gone on to its next suspension. -/
def after (s : IdleTimers) (reading : ℕ) (wheel : WheelState) : IdleTimers :=
  { s with
    wheel := wheel
    reading := reading
    closings := s.closings ++ (wheel.fired.drop s.wheel.fired.length).map fun f =>
      ⟨f.task, s.wheel.tasks f.task, reading, s.lastUse f.task, s.clock⟩ }

/-- The wheel, with the active times a tick will find. -/
def refresh (s : IdleTimers) : WheelState :=
  { s.wheel with run := s.wheel.run.map fun tick => { tick with active := s.activeTime } }

def step (s : IdleTimers) : IdleAction → Option IdleTimers
  | .wait msecs =>
      if s.clock + msecs < 2 ^ 63 then some { s with clock := s.clock + msecs } else none
  | .add timeoutMsecs hasActiveTime lastUse =>
      if lastUse ≤ s.clock then
        (s.wheel.step (.add (Int64.ofNat s.clock) timeoutMsecs hasActiveTime)).map fun wheel =>
          { s with wheel := wheel, lastUse := Function.update s.lastUse s.wheel.added lastUse }
      else none
  | .use task => some { s with lastUse := Function.update s.lastUse task s.clock }
  | .cancel task => (s.wheel.step (.cancel task)).map fun wheel => { s with wheel := wheel }
  | .tick => (s.wheel.step (.tick (Int64.ofNat s.clock) s.activeTime)).map (s.after s.clock)
  | .resume => (s.refresh.step .resume).map (s.after s.reading)

end IdleTimers

end Snova
