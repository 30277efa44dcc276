import Mathlib.Tactic.Common
import Mathlib.Data.List.Basic

/-!
# A bounded channel between coroutines

The channel of an asynchronous runtime, as a value: a buffer of at most `capacity` messages,
the suspended receive operations and the suspended send operations, both oldest first.  The
operations are the channel's own state changes at the moment an operation is initiated; what
an initiated operation reports (`SendResult`, `ReceiveResult`) names the coroutine whose
suspended operation it completes, if any, and leaves the scheduling of that coroutine to the
caller.

* a send hands its message to the oldest waiting receiver, else buffers it, else suspends;
* a receive takes the oldest buffered message, and the oldest suspended sender then moves its
  message into the buffer; with nothing buffered it suspends;
* `cancel` completes every suspended operation with an error;
* `close` refuses every later send, and every later receive that finds no buffered message.

The three well-formedness facts a reader would otherwise have to carry as invariants are
fields: the buffer is within capacity, a receiver waits only when nothing is buffered and
nobody waits to send, and a sender waits only when the buffer is full.
-/

namespace Snova

/-- A channel carrying messages `μ` between coroutines named by `κ`. -/
structure Channel (κ μ : Type) where
  capacity : ℕ
  isOpen : Bool
  buffer : List μ
  -- Suspended receive operations, oldest first.
  receivers : List κ
  -- Suspended send operations with their messages, oldest first.
  senders : List (κ × μ)
  buffer_le : buffer.length ≤ capacity
  receivers_idle : receivers ≠ [] → buffer = [] ∧ senders = []
  senders_full : senders ≠ [] → buffer.length = capacity

namespace Channel

variable {κ μ : Type}

/-- What initiating a send does. -/
inductive SendResult (κ : Type)
  -- The message went to the suspended receive of this coroutine, and the send is complete.
  | handed (receiver : κ)
  -- The message is buffered, and the send is complete.
  | buffered
  -- The channel has no room; the sender waits.
  | suspended
  -- The channel is closed; the send completes with an error.
  | closed
  deriving DecidableEq, Repr

/-- What initiating a receive does. -/
inductive ReceiveResult (κ μ : Type)
  -- A message is there; `unblocked` is the suspended sender whose send this completes.
  | received (message : μ) (unblocked : Option κ)
  -- Nothing to receive; the receiver waits.
  | suspended
  -- The channel is closed and empty; the receive completes with an error.
  | closed
  deriving DecidableEq, Repr

/-- A fresh open channel. -/
def new (capacity : ℕ) : Channel κ μ where
  capacity := capacity
  isOpen := true
  buffer := []
  receivers := []
  senders := []
  buffer_le := Nat.zero_le _
  receivers_idle := fun _ => ⟨rfl, rfl⟩
  senders_full := fun h => absurd rfl h

/-- Initiate a send of `m` by coroutine `c`. -/
def send (ch : Channel κ μ) (c : κ) (m : μ) : Channel κ μ × SendResult κ :=
  if ch.isOpen then
    match hr : ch.receivers with
    | r :: rs =>
        ({ ch with
            receivers := rs
            receivers_idle := fun _ => ch.receivers_idle (by simp [hr]) }, .handed r)
    | [] =>
        if hroom : ch.buffer.length < ch.capacity then
          ({ ch with
              buffer := ch.buffer ++ [m]
              buffer_le := by rw [List.length_append, List.length_singleton]; exact hroom
              receivers_idle := fun h => absurd hr h
              senders_full := fun h => absurd (ch.senders_full h) (by omega) }, .buffered)
        else
          ({ ch with
              senders := ch.senders ++ [(c, m)]
              receivers_idle := fun h => absurd hr h
              senders_full := fun _ => Nat.le_antisymm ch.buffer_le (by omega) }, .suspended)
  else (ch, .closed)

/-- Initiate a receive by coroutine `c`. -/
def receive (ch : Channel κ μ) (c : κ) : Channel κ μ × ReceiveResult κ μ :=
  match hb : ch.buffer, hs : ch.senders with
  | m :: ms, [] =>
      ({ ch with
          buffer := ms
          senders := []
          buffer_le := by have := ch.buffer_le; simp [hb] at this; omega
          receivers_idle := fun h => absurd (ch.receivers_idle h).1 (by simp [hb])
          senders_full := fun h => absurd rfl h }, .received m none)
  | m :: ms, (s, m') :: ss =>
      -- The oldest suspended sender takes the place that has just become free.
      ({ ch with
          buffer := ms ++ [m']
          senders := ss
          buffer_le := by have := ch.buffer_le; simp [hb] at this; simpa using this
          receivers_idle := fun h => absurd (ch.receivers_idle h).1 (by simp [hb])
          senders_full := fun _ => by
            have := ch.senders_full (by simp [hs]); simp [hb] at this; simpa using this },
        .received m (some s))
  | [], (s, m') :: ss =>
      -- Only a channel of capacity zero has a suspended sender and an empty buffer.
      ({ ch with
          buffer := []
          senders := ss
          buffer_le := Nat.zero_le _
          receivers_idle := fun h => absurd (ch.receivers_idle h).2 (by simp [hs])
          senders_full := fun _ => by simpa [hb] using ch.senders_full (by simp [hs]) },
        .received m' (some s))
  | [], [] =>
      if ch.isOpen then
        ({ ch with
            buffer := []
            receivers := ch.receivers ++ [c]
            senders := []
            buffer_le := Nat.zero_le _
            receivers_idle := fun _ => ⟨rfl, rfl⟩
            senders_full := fun h => absurd rfl h }, .suspended)
      else (ch, .closed)

/-- Complete every suspended operation with an error; the caller schedules the coroutines
`ch.receivers` and `ch.senders` names. -/
def cancel (ch : Channel κ μ) : Channel κ μ :=
  { ch with
    receivers := []
    senders := []
    receivers_idle := fun h => absurd rfl h
    senders_full := fun h => absurd rfl h }

/-- Close the channel.  Buffered messages stay receivable. -/
def close (ch : Channel κ μ) : Channel κ μ :=
  { ch with isOpen := false }

/-! ## What each operation does, by the case it falls in -/

variable {ch : Channel κ μ} {c : κ} {m : μ}

@[simp] lemma new_buffer (n : ℕ) : (new n : Channel κ μ).buffer = [] := rfl
@[simp] lemma new_receivers (n : ℕ) : (new n : Channel κ μ).receivers = [] := rfl
@[simp] lemma new_senders (n : ℕ) : (new n : Channel κ μ).senders = [] := rfl
@[simp] lemma new_isOpen (n : ℕ) : (new n : Channel κ μ).isOpen = true := rfl
@[simp] lemma new_capacity (n : ℕ) : (new n : Channel κ μ).capacity = n := rfl

@[simp] lemma cancel_buffer : ch.cancel.buffer = ch.buffer := rfl
@[simp] lemma cancel_receivers : ch.cancel.receivers = [] := rfl
@[simp] lemma cancel_senders : ch.cancel.senders = [] := rfl
@[simp] lemma cancel_isOpen : ch.cancel.isOpen = ch.isOpen := rfl

@[simp] lemma close_buffer : ch.close.buffer = ch.buffer := rfl
@[simp] lemma close_receivers : ch.close.receivers = ch.receivers := rfl
@[simp] lemma close_senders : ch.close.senders = ch.senders := rfl
@[simp] lemma close_isOpen : ch.close.isOpen = false := rfl

/-- Everything initiating a send can do, with the channel it leaves behind. -/
inductive SendSpec (ch : Channel κ μ) (c : κ) (m : μ) : Channel κ μ → SendResult κ → Prop
  | handed {ch' : Channel κ μ} {r : κ} {rs : List κ} (hopen : ch.isOpen = true)
      (hreceivers : ch.receivers = r :: rs) (hreceivers' : ch'.receivers = rs)
      (hbuffer : ch.buffer = []) (hsenders : ch.senders = []) (hbuffer' : ch'.buffer = [])
      (hsenders' : ch'.senders = []) (hopen' : ch'.isOpen = true)
      (hcap : ch'.capacity = ch.capacity) : SendSpec ch c m ch' (.handed r)
  | buffered {ch' : Channel κ μ} (hopen : ch.isOpen = true) (hreceivers : ch.receivers = [])
      (hroom : ch.buffer.length < ch.capacity) (hsenders : ch.senders = [])
      (hreceivers' : ch'.receivers = []) (hbuffer' : ch'.buffer = ch.buffer ++ [m])
      (hsenders' : ch'.senders = []) (hopen' : ch'.isOpen = true)
      (hcap : ch'.capacity = ch.capacity) : SendSpec ch c m ch' .buffered
  | suspended {ch' : Channel κ μ} (hopen : ch.isOpen = true) (hreceivers : ch.receivers = [])
      (hfull : ch.buffer.length = ch.capacity) (hreceivers' : ch'.receivers = [])
      (hbuffer' : ch'.buffer = ch.buffer) (hsenders' : ch'.senders = ch.senders ++ [(c, m)])
      (hopen' : ch'.isOpen = true) (hcap : ch'.capacity = ch.capacity) :
      SendSpec ch c m ch' .suspended
  | closed (hclosed : ch.isOpen = false) : SendSpec ch c m ch .closed

theorem send_spec (ch : Channel κ μ) (c : κ) (m : μ) :
    SendSpec ch c m (ch.send c m).1 (ch.send c m).2 := by
  unfold send
  by_cases hopen : ch.isOpen = true
  · rw [if_pos hopen]
    split
    · rename_i r rs hr
      obtain ⟨hb, hs⟩ := ch.receivers_idle (by simp [hr])
      exact .handed hopen hr rfl hb hs hb hs hopen rfl
    · rename_i hr
      by_cases hroom : ch.buffer.length < ch.capacity
      · have hs : ch.senders = [] := by
          by_contra h
          have := ch.senders_full h
          omega
        rw [dif_pos hroom]
        exact .buffered hopen hr hroom hs hr rfl hs hopen rfl
      · have hfull := Nat.le_antisymm ch.buffer_le (by omega)
        rw [dif_neg hroom]
        exact .suspended hopen hr hfull hr rfl rfl hopen rfl
  · rw [if_neg hopen]
    exact .closed (by simpa using hopen)

/-- Everything initiating a receive can do on a channel of positive capacity. -/
inductive ReceiveSpec (ch : Channel κ μ) (c : κ) : Channel κ μ → ReceiveResult κ μ → Prop
  | taken {ch' : Channel κ μ} {m : μ} {ms : List μ} (hbuffer : ch.buffer = m :: ms)
      (hreceivers : ch.receivers = []) (hsenders : ch.senders = []) (hbuffer' : ch'.buffer = ms)
      (hreceivers' : ch'.receivers = []) (hsenders' : ch'.senders = [])
      (hopen' : ch'.isOpen = ch.isOpen) (hcap : ch'.capacity = ch.capacity) :
      ReceiveSpec ch c ch' (.received m none)
  | refilled {ch' : Channel κ μ} {m m' : μ} {ms : List μ} {s : κ} {ss : List (κ × μ)}
      (hbuffer : ch.buffer = m :: ms) (hreceivers : ch.receivers = [])
      (hsenders : ch.senders = (s, m') :: ss) (hbuffer' : ch'.buffer = ms ++ [m'])
      (hreceivers' : ch'.receivers = []) (hsenders' : ch'.senders = ss)
      (hopen' : ch'.isOpen = ch.isOpen) (hcap : ch'.capacity = ch.capacity) :
      ReceiveSpec ch c ch' (.received m (some s))
  | suspended {ch' : Channel κ μ} (hopen : ch.isOpen = true) (hbuffer : ch.buffer = [])
      (hsenders : ch.senders = []) (hbuffer' : ch'.buffer = []) (hsenders' : ch'.senders = [])
      (hreceivers' : ch'.receivers = ch.receivers ++ [c]) (hopen' : ch'.isOpen = true)
      (hcap : ch'.capacity = ch.capacity) : ReceiveSpec ch c ch' .suspended
  | closed (hclosed : ch.isOpen = false) (hbuffer : ch.buffer = []) :
      ReceiveSpec ch c ch .closed

theorem receive_spec (ch : Channel κ μ) (c : κ) (hcap : 0 < ch.capacity) :
    ReceiveSpec ch c (ch.receive c).1 (ch.receive c).2 := by
  -- A buffered message or a suspended sender excludes a waiting receiver.
  have hnoReceiver : ch.buffer ≠ [] → ch.receivers = [] := fun hb => by
    by_contra h
    exact hb (ch.receivers_idle h).1
  unfold receive
  split
  · rename_i m ms hb hs
    exact .taken hb (hnoReceiver (by simp [hb])) hs rfl (hnoReceiver (by simp [hb])) rfl rfl rfl
  · rename_i m ms s m' ss hb hs
    exact .refilled hb (hnoReceiver (by simp [hb])) hs rfl (hnoReceiver (by simp [hb])) rfl rfl rfl
  · rename_i s m' ss hb hs
    have hfull := ch.senders_full (by simp [hs])
    rw [hb, List.length_nil] at hfull
    omega
  · rename_i hb hs
    by_cases hopen : ch.isOpen = true
    · rw [if_pos hopen]
      exact .suspended hopen hb hs rfl rfl rfl hopen rfl
    · rw [if_neg hopen]
      exact .closed (by simpa using hopen) hb

end Channel

end Snova
