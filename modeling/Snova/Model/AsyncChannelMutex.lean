import Snova.Framework.Exec
import Snova.Framework.Channel

/-!
# The write mutex

`AsyncChannelMutex` (`snova/util/async_channel_mutex.{h,cc}`) is a flag, a counter and a
channel of capacity one.  `Lock` loops on the flag and waits for a token on the channel;
`Unlock` clears the flag and, when the counter says somebody waits, sends a token.  Everything
between two suspension points runs without interruption, so the embedding cuts the two
coroutines at their `co_await`s: `lock`, `lockResume` and `unlock` are the stretches in
between, and what each of them ends in (`LockResult`, `UnlockResult`) is where the coroutine
stands when another one may run.

A completed channel operation does not run its coroutine; it queues it.  That gap is where the
interesting schedules live, so the client machine `MutexState` keeps a *woken* waiter
(`LockPc.woken`) apart from a blocked one (`LockPc.waiting`), and a `Unlock` whose send has
completed (`LockPc.sent`) apart from one that waits for room (`LockPc.sending`).

`MutexState.step` is the whole system: any coroutine may be scheduled at any of its points, and
`Close` may come at any time.
-/

namespace Snova

/-- `AsyncChannelMutex`: `channel_`, `wait_count_`, `locked_`. -/
structure AsyncChannelMutex (κ : Type) where
  channel : Channel κ Bool
  waitCount : ℕ
  locked : Bool

namespace AsyncChannelMutex

variable {κ : Type}

/-- The constructor: a channel of capacity one, nobody waiting, not locked. -/
def new : AsyncChannelMutex κ where
  channel := .new 1
  waitCount := 0
  locked := false

/-- Where a stretch of `Lock` ends. -/
inductive LockResult (κ : Type)
  -- `locked_` has been set and `Lock` returned success.
  | acquired
  -- `Lock` returned without taking the lock: the channel is closed, or the receive failed.
  | returned
  -- Suspended in `async_receive`.
  | suspended
  -- `async_receive` completed at once, with an error if `ec`; the coroutine is queued.
  -- `unblocked` is the coroutine whose suspended send this receive completed.
  | completed (ec : Bool) (unblocked : Option κ)
  deriving DecidableEq, Repr

/-- Where a stretch of `Unlock` ends. -/
inductive UnlockResult (κ : Type)
  -- `Unlock` returned without sending.
  | returned
  -- Suspended in `async_send`, waiting for room.
  | suspended
  -- `async_send` completed; `receiver` is the waiter that was handed the token, if any.
  | completed (receiver : Option κ)
  deriving DecidableEq, Repr

/-- The `while (locked_)` loop of `Lock`, from its head to the next suspension point. -/
def lockLoop (m : AsyncChannelMutex κ) (c : κ) : AsyncChannelMutex κ × LockResult κ :=
  if m.locked then
    match m.channel.receive c with
    | (ch, .received _ unblocked) =>
        ({ m with channel := ch, waitCount := m.waitCount + 1 }, .completed false unblocked)
    | (ch, .suspended) => ({ m with channel := ch, waitCount := m.waitCount + 1 }, .suspended)
    | (ch, .closed) =>
        ({ m with channel := ch, waitCount := m.waitCount + 1 }, .completed true none)
  else ({ m with locked := true }, .acquired)

/-- `Lock`, from its call to its first suspension point. -/
def lock (m : AsyncChannelMutex κ) (c : κ) : AsyncChannelMutex κ × LockResult κ :=
  if m.channel.isOpen then m.lockLoop c else (m, .returned)

/-- `Lock`, resumed from `async_receive` with error `ec`. -/
def lockResume (m : AsyncChannelMutex κ) (c : κ) (ec : Bool) :
    AsyncChannelMutex κ × LockResult κ :=
  let m := { m with waitCount := m.waitCount - 1 }
  if ec then (m, .returned) else m.lockLoop c

/-- `Unlock`, from its call to its suspension point. -/
def unlock (m : AsyncChannelMutex κ) (c : κ) : AsyncChannelMutex κ × UnlockResult κ :=
  if m.channel.isOpen then
    let m := { m with locked := false }
    if 0 < m.waitCount then
      match m.channel.send c true with
      | (ch, .handed r) => ({ m with channel := ch }, .completed (some r))
      | (ch, .buffered) => ({ m with channel := ch }, .completed none)
      | (ch, .suspended) => ({ m with channel := ch }, .suspended)
      | (ch, .closed) => ({ m with channel := ch }, .completed none)
    else (m, .returned)
  else (m, .returned)

/-- `Close`: `channel_.cancel()`, then `channel_.close()`. -/
def close (m : AsyncChannelMutex κ) : AsyncChannelMutex κ :=
  { m with channel := m.channel.cancel.close }

end AsyncChannelMutex

/-! ## The coroutines that use it -/

/-- Where a coroutine stands with respect to the mutex. -/
inductive LockPc
  -- Not inside `Lock`, `Unlock` or a critical section.
  | idle
  -- Suspended in the `async_receive` of `Lock`.
  | waiting
  -- Its `async_receive` has completed, with an error if `ec`; it has not resumed yet.
  | woken (ec : Bool)
  -- `Lock` has returned success on an open mutex and `Unlock` has not been called.
  | holding
  -- `Lock` has returned without the lock (a closed mutex).
  | passing
  -- Suspended in the `async_send` of `Unlock`, waiting for room in the channel.
  | sending
  -- Its `async_send` has completed; it has not resumed yet.
  | sent
  deriving DecidableEq, Repr

/-- A mutex and the coroutines that use it. -/
structure MutexState (κ : Type) where
  mutex : AsyncChannelMutex κ
  pc : κ → LockPc

/-- One scheduling decision. -/
inductive MutexAction (κ : Type)
  -- An idle coroutine calls `Lock`.
  | lock (c : κ)
  -- A woken coroutine resumes inside `Lock`.
  | resume (c : κ)
  -- A coroutine past its `Lock` calls `Unlock`.
  | unlock (c : κ)
  -- A coroutine whose `async_send` has completed resumes and returns from `Unlock`.
  | finish (c : κ)
  -- Somebody calls `Close`.
  | close
  deriving DecidableEq, Repr

namespace MutexState

variable {κ : Type} [DecidableEq κ]

/-- A fresh mutex, with every coroutine outside. -/
def init : MutexState κ where
  mutex := .new
  pc := fun _ => .idle

/-- Queue the coroutine, if any, whose suspended operation has completed. -/
def wake (pc : κ → LockPc) : Option κ → LockPc → κ → LockPc
  | none, _ => pc
  | some d, p => Function.update pc d p

/-- The coroutine `c` has run a stretch of `Lock`. -/
def afterLock (s : MutexState κ) (c : κ) :
    AsyncChannelMutex κ × AsyncChannelMutex.LockResult κ → MutexState κ
  | (m, .acquired) => ⟨m, Function.update s.pc c .holding⟩
  | (m, .returned) => ⟨m, Function.update s.pc c .passing⟩
  | (m, .suspended) => ⟨m, Function.update s.pc c .waiting⟩
  | (m, .completed ec unblocked) =>
      ⟨m, Function.update (wake s.pc unblocked .sent) c (.woken ec)⟩

/-- The coroutine `c` has run `Unlock` up to its suspension point. -/
def afterUnlock (s : MutexState κ) (c : κ) :
    AsyncChannelMutex κ × AsyncChannelMutex.UnlockResult κ → MutexState κ
  | (m, .returned) => ⟨m, Function.update s.pc c .idle⟩
  | (m, .suspended) => ⟨m, Function.update s.pc c .sending⟩
  | (m, .completed receiver) =>
      ⟨m, Function.update (wake s.pc receiver (.woken false)) c .sent⟩

/-- What `Close` does to a coroutine: `cancel` completes its suspended operation. -/
def cancelled : LockPc → LockPc
  | .waiting => .woken true
  | .sending => .sent
  | p => p

/-- One step of the system. -/
def step (s : MutexState κ) : MutexAction κ → Option (MutexState κ)
  | .lock c => if s.pc c = .idle then some (s.afterLock c (s.mutex.lock c)) else none
  | .resume c =>
      match s.pc c with
      | .woken ec => some (s.afterLock c (s.mutex.lockResume c ec))
      | _ => none
  | .unlock c =>
      if s.pc c = .holding ∨ s.pc c = .passing then
        some (s.afterUnlock c (s.mutex.unlock c))
      else none
  | .finish c =>
      if s.pc c = .sent then some { s with pc := Function.update s.pc c .idle } else none
  | .close => some ⟨s.mutex.close, fun c => cancelled (s.pc c)⟩

end MutexState

end Snova
