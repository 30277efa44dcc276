import Snova.Framework.Exec
import Snova.Model.MuxSession
import Snova.Model.OpenTunnel
import Mathlib.Logic.Function.Basic

/-!
# The connections of a client

`MuxClient::Init`, `NewConnection` and `CheckConnections` (`snova/mux/mux_client.cc`), with what
`ReadEventLoop` (`snova/mux/mux_connection.cc`) does to the retired flag of its connection.

One coroutine fills the slots of the session: `Init` first, then `CheckConnections`.  It is
suspended in `NewConnection`, in its timer or in the write of a retire request, and runs in one
piece between two suspensions.  Each connection has a coroutine of its own, which reads events and
empties the slot in the end.  Connections are numbered in the order in which they are made.
-/

namespace Snova

/-- A connection of the client. -/
structure ClientConn where
  -- the slot `NewConnection` was called for
  idx : ℕ := 0
  retired : Bool := false
  -- the spawned coroutine has ended
  finished : Bool := false

/-- Where the coroutine that fills the slots is suspended. -/
inductive ClientTask
  -- `Init`, in `NewConnection`
  | init (idx : ℕ)
  -- `Init` returned an error
  | failed
  -- `CheckConnections`, in its timer, in `NewConnection` or in the write of a retire request
  | sleeping
  | connecting (idx : ℕ)
  | retiring (idx : ℕ)

structure MuxClient where
  -- `remote_session_->conns`
  conns : List (Option ℕ)
  -- how many connections have been made, and their state
  created : ℕ
  conn : ℕ → ClientConn
  task : ClientTask

inductive ClientAction
  -- `NewConnection` gets to its end, or returns an error.  `expired` says which connections are
  -- past `GetExpireAtUnixSecs` when `CheckConnections` goes on
  | connected (ok : Bool) (expired : ℕ → Bool)
  -- the timer of `CheckConnections` expires, or its retire request is written
  | timer (expired : ℕ → Bool)
  | retireWritten (expired : ℕ → Bool)
  -- the read loop of a connection processes an event, or returns
  | read (c : ℕ) (event : MuxEvent)
  | finish (c : ℕ)

namespace MuxClient

def init (connNumPerServer : ℕ) : MuxClient where
  conns := List.replicate connNumPerServer none
  created := 0
  conn := fun _ => {}
  task := .init 0

/-- The end of `NewConnection`: the coroutine of the connection is spawned and the slot is taken.
There is no result where the source would write behind the end of the array. -/
def newConnection (s : MuxClient) (idx : ℕ) : Option MuxClient :=
  if idx < s.conns.length then
    some { s with
      conns := s.conns.set idx (some s.created)
      created := s.created + 1
      conn := Function.update s.conn s.created { idx := idx } }
  else none

/-- What `CheckConnections` does to an expired connection. -/
def retire (s : MuxClient) (idx c : ℕ) : MuxClient :=
  { s with
    conns := s.conns.set idx none
    conn := Function.update s.conn c { s.conn c with retired := true } }

/-- The loop of `CheckConnections` over the slots that are left, up to the next suspension. -/
def checkConnections (expired : ℕ → Bool) (s : MuxClient) : List ℕ → MuxClient
  | [] => { s with task := .sleeping }
  | i :: rest =>
      match s.conns[i]?.join with
      | none => { s with task := .connecting i }
      | some c =>
          if expired c then { s.retire i c with task := .retiring i }
          else checkConnections expired s rest

/-- `CheckConnections` goes on behind slot `idx`. -/
def checkBehind (expired : ℕ → Bool) (s : MuxClient) (idx : ℕ) : MuxClient :=
  checkConnections expired s (List.range' (idx + 1) (s.conns.length - (idx + 1)))

/-- `Init` goes on behind slot `idx`, and spawns `CheckConnections` in the end. -/
def initBehind (s : MuxClient) (idx : ℕ) : MuxClient :=
  { s with task := if idx + 1 < s.conns.length then .init (idx + 1) else .sleeping }

/-- `ProcessReadEvent` on a connection without a retire callback. -/
def processReadEvent (s : MuxClient) (c : ℕ) (event : MuxEvent) : MuxClient :=
  match event.readCase with
  | .retireConn => { s with conn := Function.update s.conn c { s.conn c with retired := true } }
  | _ => s

/-- The end of the coroutine of a connection. -/
def finishConn (s : MuxClient) (c : ℕ) : MuxClient :=
  { s with
    conns := if (s.conn c).retired then s.conns else s.conns.set (s.conn c).idx none
    conn := Function.update s.conn c { s.conn c with finished := true } }

/-- The coroutine of a connection is running. -/
def Running (s : MuxClient) (c : ℕ) : Prop := c < s.created ∧ (s.conn c).finished = false

instance (s : MuxClient) (c : ℕ) : Decidable (s.Running c) :=
  inferInstanceAs (Decidable (_ ∧ _))

def step (s : MuxClient) : ClientAction → Option MuxClient
  | .connected ok expired =>
      match s.task with
      | .init idx =>
          if ok then (s.newConnection idx).map (initBehind · idx)
          else if idx = 0 then some { s with task := .failed }
          else some (s.initBehind idx)
      | .connecting idx =>
          if ok then (s.newConnection idx).map (checkBehind expired · idx)
          else some (s.checkBehind expired idx)
      | _ => none
  | .timer expired =>
      match s.task with
      | .sleeping => some (s.checkConnections expired (List.range s.conns.length))
      | _ => none
  | .retireWritten expired =>
      match s.task with
      | .retiring idx => some (s.checkBehind expired idx)
      | _ => none
  | .read c event => if s.Running c then some (s.processReadEvent c event) else none
  | .finish c => if s.Running c then some (s.finishConn c) else none

end MuxClient

end Snova
