import Snova.Framework.Exec

/-!
# The bytes of the latest seconds

`latest_window_recv_bytes_` and `latest_window_send_bytes_` of a `MuxConnection`
(`snova/mux/mux_connection.cc`): a ring of 32 counters each, one for each second.  `Write` takes the
second before it waits for the socket and adds its bytes when the socket has taken them; a read adds
them in the second in which it returns.  `MuxClient::CheckConnections` (`snova/mux/mux_client.cc`)
clears two counters of each ring every three seconds.

Seconds are counted without a bound here.  In the source `ResetCounter` takes a `uint32_t`, which
makes no difference as 32 divides `2 ^ 32`.
-/

namespace Snova

/-- One of the rings. -/
abbrev WindowRing := Fin 32 → UInt32

/-- The counter of a second. -/
def windowSlot (now : ℕ) : Fin 32 := Fin.ofNat 32 now

/-- `latest_window_bytes[now % size] += n`. -/
def WindowRing.add (ring : WindowRing) (now n : ℕ) : WindowRing :=
  Function.update ring (windowSlot now) (ring (windowSlot now) + UInt32.ofNat n)

/-- The loop of `ResetCounter` for one of the rings. -/
def WindowRing.reset (ring : WindowRing) (now : ℕ) : WindowRing :=
  Function.update (Function.update ring (windowSlot (now + 1)) 0) (windowSlot (now + 1 + 1)) 0

/-- `GetLatestWindowRecvBytes` and `GetLatestWindowSendBytes`. -/
def WindowRing.total (ring : WindowRing) : UInt64 :=
  (List.finRange 32).foldl (fun n i => n + (ring i).toUInt64) 0

/-- Bytes that have been written or read: the second they are counted for, the second in which the
socket was done, and their number. -/
structure Transfer where
  began : ℕ
  finished : ℕ
  bytes : ℕ
  deriving DecidableEq

structure WindowState where
  now : ℕ
  -- whether the connection has been visited in this second
  visited : Bool
  recvRing : WindowRing
  sendRing : WindowRing
  -- the seconds in which the writes that wait for the socket began
  writing : List ℕ
  received : List Transfer
  sent : List Transfer

inductive WindowAction
  -- the next second
  | tick
  -- `CheckConnections` calls `ResetCounter`
  | visit
  -- `Write` comes to its `AsyncWrite`
  | startWrite
  -- the `AsyncWrite` of one of the writes returns
  | finishWrite (i n : ℕ)
  | failWrite (i : ℕ)
  -- an `AsyncRead` returns
  | read (n : ℕ)

namespace WindowState

/-- A connection that is new in the second `now`. -/
def init (now : ℕ) (visited : Bool) : WindowState :=
  ⟨now, visited, fun _ => 0, fun _ => 0, [], [], []⟩

/-- `phase` is the remainder of the seconds in which the connection is visited. -/
def step (phase : Fin 3) (s : WindowState) : WindowAction → Option WindowState
  | .tick =>
      if s.now % 3 = phase.val ∧ s.visited = false then none
      else some { s with now := s.now + 1, visited := false }
  | .visit =>
      if s.now % 3 = phase.val ∧ s.visited = false then
        some { s with
          visited := true, recvRing := s.recvRing.reset s.now, sendRing := s.sendRing.reset s.now }
      else none
  | .startWrite => some { s with writing := s.now :: s.writing }
  | .finishWrite i n =>
      (s.writing[i]?).map fun began =>
        { s with
          writing := s.writing.eraseIdx i
          sendRing := s.sendRing.add began n
          sent := ⟨began, s.now, n⟩ :: s.sent }
  | .failWrite i => (s.writing[i]?).map fun _ => { s with writing := s.writing.eraseIdx i }
  | .read n =>
      some { s with
        recvRing := s.recvRing.add s.now n
        received := ⟨s.now, s.now, n⟩ :: s.received }

end WindowState

end Snova
