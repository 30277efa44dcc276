import Snova.Framework.Exec
import Snova.Model.MuxEvent

/-!
# The buffer pool

`get_iobuf` and `IOBufDeleter` (`snova/io/io.cc`).  A buffer appears as its size, and the pool as
a stack of sizes.  A buffer that is released keeps its size, so a later user may be given one that
is larger than what it asked for; `read_until` (`snova/io/io_util.cc`) enlarges the buffer it reads
into.
-/

namespace Snova

/-- `get_raw_iobuf`: the size of the buffer, and the pool without it. -/
def getRawIobuf (pool : List ℕ) (n : ℕ) : ℕ × List ℕ :=
  let size := pool.headD 0
  let n := if n < kMaxChunkSize + kReservedBufferSize then kMaxChunkSize + kReservedBufferSize
    else n
  (if size < n then n else size, pool.tail)

/-- `IOBufDeleter`, with `g_iobuf_max_pool_size`. -/
def ioBufDeleter (maxPoolSize : ℕ) (pool : List ℕ) (size : ℕ) : List ℕ :=
  if pool.length < maxPoolSize then size :: pool else pool

/-- The pool, and the buffers that are in use. -/
structure IoBufs where
  pool : List ℕ
  active : List ℕ

inductive IoBufAction
  | get (n : ℕ)
  | release (i : ℕ)
  -- `read_until` has read `readedLen` bytes into a buffer and finds less room than its delimiter
  -- needs
  | grow (i readedLen untilSize : ℕ)

namespace IoBufs

def init : IoBufs := ⟨[], []⟩

def step (maxPoolSize : ℕ) (s : IoBufs) : IoBufAction → Option IoBufs
  | .get n =>
      let (size, pool) := getRawIobuf s.pool n
      some ⟨pool, s.active ++ [size]⟩
  | .release i =>
      match s.active[i]? with
      | some size => some ⟨ioBufDeleter maxPoolSize s.pool size, s.active.eraseIdx i⟩
      | none => none
  | .grow i readedLen untilSize =>
      match s.active[i]? with
      | some size =>
          if readedLen ≤ size ∧ size - readedLen < untilSize then
            some { s with active := s.active.set i (size * 2) }
          else none
      | none => none

end IoBufs

end Snova
