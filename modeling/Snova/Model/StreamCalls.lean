import Snova.Model.MuxStream

/-!
# Calls of a stream

`MuxStream::Open`, `Write` and `Close` (`snova/mux/mux_stream.cc`) with the `WriteEvent` they share
(`snova/mux/mux_stream.h`).  `WriteEvent` closes the stream when it has failed three times, and
`Close(false)` writes its request by `WriteEvent`.

Any number of coroutines are in calls of one stream.  A call is the point where its innermost
function stands and the stack of the functions that wait for it, as deep as they nest.  The only
suspension is the call of an event writer: the coroutine that runs goes on until it gets there or
returns, and the others wait meanwhile.
-/

namespace Snova

/-- The error codes of the stream's functions. -/
inductive StreamErrc
  | noLink
  -- an error of the data channel
  | channel
  deriving DecidableEq

namespace MuxStream

variable {κ μ : Type}

/-- The error `Offer` returns without a suspension. -/
def offerError (st : MuxStream κ μ) (c : κ) (chunk : μ) : Option StreamErrc :=
  if st.closed then some .noLink
  else
    match (st.offer c chunk).2 with
    | .failed => some .channel
    | _ => none

/-- The error `Read` returns without a suspension. -/
def readError (st : MuxStream κ μ) (c : κ) : Option StreamErrc :=
  if st.closed then some .noLink
  else
    match (st.read c).2 with
    | .failed => some .channel
    | _ => none

end MuxStream

inductive CallKind
  | open
  | write
  | close (byRemote : Bool)
  deriving DecidableEq

/-- A function that waits for the one it has called. -/
inductive Waiting
  -- `WriteEvent`, in the `Close(false)` behind its loop
  | closeFailed
  -- `Close(false)`, in the `WriteEvent` of its request
  | closeWrite

/-- Where the innermost function of a call stands. -/
inductive CallPoint
  -- in the loop of `WriteEvent`, with so many tries left
  | writeEvent (left : ℕ)
  -- suspended in an event writer, with so many tries left behind it
  | writing (left : ℕ)
  -- at the beginning of `Close`
  | close (byRemote : Bool)
  | returning (success : Bool)

structure StreamCall where
  kind : CallKind
  point : CallPoint
  stack : List Waiting := []
  -- how many times it has called an event writer, and how many steps it has made
  attempts : ℕ := 0
  steps : ℕ := 0

/-- A call that has returned. -/
structure ReturnedCall where
  kind : CallKind
  attempts : ℕ
  steps : ℕ
  error : Option StreamErrc

structure StreamCalls (κ μ : Type) where
  stream : MuxStream κ μ
  -- the table has the stream under its id
  inTable : Bool
  -- `event_writer_` is there
  hasWriter : Bool
  -- the call each coroutine is in, and the coroutine that runs
  calls : κ → Option StreamCall
  running : Option κ
  returned : List ReturnedCall
  -- whether some `Close` has been started, and by whom the first one
  closeStarted : Bool
  firstByRemote : Option Bool
  -- how many `StreamCloseRequest`s have been made
  closeRequests : ℕ

inductive CallAction (κ μ : Type)
  | call (c : κ) (kind : CallKind)
  -- the running coroutine goes on; `available` says whether the factory has a writer
  | tick (available : Bool)
  -- the event writer of a coroutine returns
  | resume (c : κ) (success available : Bool)
  | offer (c : κ) (chunk : μ)
  | read (c : κ)
  -- the id of the stream is removed from the table on behalf of another stream
  | evict

namespace StreamCalls

variable {κ μ : Type} [DecidableEq κ]

/-- A new stream, with the outcome of `emplace` and of the first call of its factory. -/
def init (inTable hasWriter : Bool) : StreamCalls κ μ where
  stream := .new
  inTable := inTable
  hasWriter := hasWriter
  calls := fun _ => none
  running := none
  returned := []
  closeStarted := false
  firstByRemote := none
  closeRequests := 0

/-- The call of a coroutine goes on at another point. -/
def goOn (s : StreamCalls κ μ) (c : κ) (call : StreamCall) (point : CallPoint)
    (stack : List Waiting) : StreamCalls κ μ :=
  { s with
    calls := Function.update s.calls c
      (some { call with point := point, stack := stack, steps := call.steps + 1 }) }

/-- `event_writer_` is called. -/
def callWriter (s : StreamCalls κ μ) (c : κ) (call : StreamCall) (left : ℕ) : StreamCalls κ μ :=
  { s.goOn c { call with attempts := call.attempts + 1 } (.writing left) call.stack with
    running := none }

/-- `Close` of a stream that is open, up to the request. -/
def startClose (s : StreamCalls κ μ) (byRemote : Bool) : StreamCalls κ μ :=
  { s with
    stream := s.stream.closeByRemote
    inTable := false
    closeStarted := true
    firstByRemote := some byRemote
    closeRequests := if byRemote then s.closeRequests else s.closeRequests + 1 }

/-- `MuxStream::Close`. -/
def close (s : StreamCalls κ μ) (c : κ) (call : StreamCall) (byRemote : Bool) : StreamCalls κ μ :=
  if s.stream.closed then
    { s.goOn c call (.returning true) call.stack with closeStarted := true }
  else if byRemote then (s.startClose true).goOn c call (.returning true) call.stack
  else (s.startClose false).goOn c call (.writeEvent 3) (.closeWrite :: call.stack)

/-- The innermost function returns to the one that waits for it, or the call returns. -/
def leave (s : StreamCalls κ μ) (c : κ) (call : StreamCall) (success : Bool) : StreamCalls κ μ :=
  match call.stack with
  | .closeFailed :: stack => s.goOn c call (.returning false) stack
  | .closeWrite :: stack => s.goOn c call (.returning success) stack
  | [] =>
      { s with
        calls := Function.update s.calls c none
        running := none
        returned := s.returned ++ [⟨call.kind, call.attempts, call.steps + 1,
          if success then none else some .noLink⟩] }

/-- What the running coroutine does next. -/
def tick (s : StreamCalls κ μ) (c : κ) (call : StreamCall) (available : Bool) :
    Option (StreamCalls κ μ) :=
  match call.point with
  | .writeEvent 0 => some (s.goOn c call (.close false) (.closeFailed :: call.stack))
  | .writeEvent (left + 1) =>
      some (if s.hasWriter then s.callWriter c call left
        else { s with hasWriter := available }.goOn c call (.writeEvent left) call.stack)
  | .writing _ => none
  | .close byRemote => some (s.close c call byRemote)
  | .returning success => some (s.leave c call success)

/-- The point where a call begins. -/
def begin : CallKind → CallPoint
  | .open => .writeEvent 3
  | .write => .writeEvent 3
  | .close byRemote => .close byRemote

def step (s : StreamCalls κ μ) : CallAction κ μ → Option (StreamCalls κ μ)
  | .call c kind =>
      match s.running, s.calls c with
      | none, none =>
          some { s with
            calls := Function.update s.calls c (some { kind := kind, point := begin kind })
            running := some c }
      | _, _ => none
  | .tick available => do
      let c ← s.running
      let call ← s.calls c
      s.tick c call available
  | .resume c success available =>
      match s.running, s.calls c with
      | none, some call =>
          match call.point with
          | .writing left =>
              if success then
                some { s.goOn c call (.returning true) call.stack with running := some c }
              else
                let s := { s with hasWriter := available }
                some { s.goOn c call (.writeEvent left) call.stack with running := some c }
          | _ => none
      | _, _ => none
  | .offer c chunk =>
      match s.running with
      | none => some { s with stream := (s.stream.offer c chunk).1 }
      | some _ => none
  | .read c =>
      match s.running with
      | none => some { s with stream := (s.stream.read c).1 }
      | some _ => none
  | .evict =>
      match s.running with
      | none => some { s with inTable := false }
      | some _ => none

end StreamCalls

end Snova
