import Snova.Model.TrustedNs

/-!
# Reading up to a delimiter

`read_until` (`snova/io/io_util.cc`).  The coroutine stops at each `AsyncRead`, and a read puts as
many bytes into the free end of the buffer as have arrived and fit.  No bytes stand for a connection
that has been closed or has failed.  The allocations of the buffer succeed.
-/

namespace Snova

/-- A call of `read_until`: its buffer and `readed_len`, and what it has returned, `none` while it
waits for a read. -/
structure ReadUntil where
  buf : Bytes
  readedLen : ℕ
  rc : Option ℤ
  deriving DecidableEq

namespace ReadUntil

/-- The loop from its head to the next read. -/
def loop (delim buf : Bytes) (readedLen : ℕ) : ReadUntil :=
  let readedView := buf.take readedLen
  match find delim readedView with
  | some pos => ⟨buf, readedLen, some (toInt32 pos)⟩
  | none =>
      let rest := buf.length - readedLen
      -- the new half holds zeros
      let buf := if rest < delim.length then buf ++ List.replicate buf.length 0 else buf
      ⟨buf, readedLen, none⟩

/-- A read returns. -/
def onRead (delim : Bytes) (s : ReadUntil) (data : Bytes) : Option ReadUntil :=
  let n := data.length
  if s.rc = none ∧ n ≤ s.buf.length - s.readedLen then
    if 0 < n then
      let buf := s.buf.take s.readedLen ++ data ++ s.buf.drop (s.readedLen + n)
      some (loop delim buf (s.readedLen + n))
    else some { s with rc := some (-1) }
  else none

end ReadUntil

end Snova
