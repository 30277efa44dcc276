import Snova.Framework.Exec
import Mathlib.Logic.Function.Basic

/-!
# The table of streams

`g_streams` with `MuxStream::New`, `Get`, `Remove` and `Close` (`snova/mux/mux_stream.cc`), as the
relays (`snova/server/relay.cc`) and the read loop (`snova/mux/mux_connection.cc`) use them.

Streams are numbered in the order in which they are made.  A relay closes its stream when it ends,
and its clean-up removes the id of the stream from the table once `Close` has returned.
-/

namespace Snova

/-- `ClientStreamID`. -/
structure ClientStreamID where
  clientId : UInt64
  sid : UInt32
  deriving DecidableEq

/-- A stream, as far as the table is concerned. -/
structure TableStream where
  id : ClientStreamID := ⟨0, 0⟩
  closed : Bool := false
  -- the clean-up of its relay has run
  cleaned : Bool := false

structure StreamTable where
  -- `g_streams`
  streams : ClientStreamID → Option ℕ
  -- how many streams have been made, and their state
  created : ℕ
  stream : ℕ → TableStream

inductive TableAction
  -- `MuxStream::New`, from `relay_handler` with an id of the peer's choice or from `do_relay`
  | new (id : ClientStreamID)
  -- `Close` of a stream somebody holds: its relay, or the timer of the relay
  | close (c : ℕ)
  -- `EVENT_STREAM_CLOSE`
  | closeEvent (id : ClientStreamID)
  -- the clean-up at the end of a relay
  | cleanup (c : ℕ)

namespace StreamTable

def init : StreamTable := ⟨fun _ => none, 0, fun _ => {}⟩

/-- `MuxStream::Get`. -/
def get (s : StreamTable) (id : ClientStreamID) : Option ℕ := s.streams id

/-- `MuxStream::Remove`. -/
def remove (s : StreamTable) (id : ClientStreamID) : StreamTable :=
  { s with streams := Function.update s.streams id none }

/-- `MuxStream::New`: `emplace` does nothing when the id is in the table already. -/
def new (s : StreamTable) (id : ClientStreamID) : StreamTable where
  streams :=
    match s.streams id with
    | some _ => s.streams
    | none => Function.update s.streams id (some s.created)
  created := s.created + 1
  stream := Function.update s.stream s.created { id := id }

/-- `MuxStream::Close` up to its first suspension. -/
def close (s : StreamTable) (c : ℕ) : StreamTable :=
  if (s.stream c).closed then s
  else
    { s.remove (s.stream c).id with
      stream := Function.update s.stream c { s.stream c with closed := true } }

/-- The clean-up of the relay of a stream. -/
def cleanup (s : StreamTable) (c : ℕ) : StreamTable :=
  { s.remove (s.stream c).id with
    stream := Function.update s.stream c { s.stream c with cleaned := true } }

def step (s : StreamTable) : TableAction → Option StreamTable
  | .new id => some (s.new id)
  | .close c => if c < s.created then some (s.close c) else none
  | .closeEvent id =>
      match s.get id with
      | some c => some (s.close c)
      | none => some s
  | .cleanup c =>
      if c < s.created ∧ (s.stream c).closed = true ∧ (s.stream c).cleaned = false then
        some (s.cleanup c)
      else none

end StreamTable

end Snova
