import Snova.Model.IoBuf

/-!
# The counters of the buffer pool

`get_raw_iobuf`, `IOBufDeleter` and the counters that `register_io_stat` reports
(`snova/io/io.cc`).  The counters go by the capacity of a buffer, which is the storage its vector
has and not its size.  What the vector's `resize` does to the capacity is a matter of the library
(`Growth`): it takes more storage when the new size does not fit, and never gives any back.

A buffer is known by its address, and `new` may return any address at which there is no buffer.  All
buffers are in one address space, so that their capacities together are less than 2^64; an
allocation that does not fit there fails.
-/

namespace Snova

/-- How much storage a vector takes when it is resized from `size` to `n` and `n` does not fit. -/
structure Growth where
  next : (size capacity n : ℕ) → ℕ
  le_next : ∀ size capacity n, n ≤ next size capacity n

/-- An `IOBuf`, without its bytes. -/
structure IOBuf where
  addr : ℕ
  size : ℕ
  capacity : ℕ
  size_le : size ≤ capacity
  deriving DecidableEq

namespace IOBuf

/-- `new IOBuf`. -/
def new (addr : ℕ) : IOBuf := ⟨addr, 0, 0, le_rfl⟩

/-- `resize`. -/
def resize (growth : Growth) (v : IOBuf) (n : ℕ) : IOBuf :=
  if h : n ≤ v.capacity then ⟨v.addr, n, v.capacity, h⟩
  else ⟨v.addr, n, growth.next v.size v.capacity n, growth.le_next _ _ _⟩

end IOBuf

/-- The pool, its counters, and the buffers that are in use. -/
structure IoBufPool where
  -- the top of the stack first
  ioBufs : List IOBuf
  poolBytes : UInt64
  activeBytes : UInt64
  activeNum : UInt32
  active : List IOBuf
  deriving DecidableEq

inductive IoBufPoolAction
  -- `get_iobuf` or `get_shared_iobuf`; `addr` is where a new buffer would be
  | get (n addr : ℕ)
  -- the last pointer to a buffer in use goes
  | release (i : ℕ)
  -- `read_until` has read `readedLen` bytes into a buffer and finds less room than its delimiter
  -- needs
  | grow (i readedLen untilSize : ℕ)

namespace IoBufPool

/-- The total capacity of some buffers. -/
def totalCapacity (bufs : List IOBuf) : ℕ := (bufs.map IOBuf.capacity).sum

def init : IoBufPool := ⟨[], 0, 0, 0, []⟩

/-- `g_io_bufs.top()` and `pop()`, or `new`. -/
def takeIobuf (s : IoBufPool) (addr : ℕ) : IOBuf × IoBufPool :=
  match s.ioBufs with
  | [] => (IOBuf.new addr, s)
  | p :: ioBufs =>
      (p, { s with ioBufs := ioBufs, poolBytes := s.poolBytes - UInt64.ofNat p.capacity })

/-- `get_raw_iobuf`. -/
def getRawIobuf (growth : Growth) (s : IoBufPool) (n addr : ℕ) : IOBuf × IoBufPool :=
  let (p, s) := s.takeIobuf addr
  let n := if n < kMaxChunkSize + kReservedBufferSize then kMaxChunkSize + kReservedBufferSize
    else n
  let p := if p.size < n then p.resize growth n else p
  (p, { s with
    activeNum := s.activeNum + 1
    activeBytes := s.activeBytes + UInt64.ofNat p.capacity })

/-- `IOBufDeleter`, with `g_iobuf_max_pool_size`. -/
def ioBufDeleter (maxPoolSize : ℕ) (s : IoBufPool) (v : IOBuf) : IoBufPool :=
  let s := { s with
    activeNum := s.activeNum - 1
    activeBytes := s.activeBytes - UInt64.ofNat v.capacity }
  if s.ioBufs.length < maxPoolSize then
    { s with ioBufs := v :: s.ioBufs, poolBytes := s.poolBytes + UInt64.ofNat v.capacity }
  else s

/-- All buffers there are. -/
def live (s : IoBufPool) : List IOBuf := s.active ++ s.ioBufs

def step (maxPoolSize : ℕ) (growth : Growth) (s : IoBufPool) :
    IoBufPoolAction → Option IoBufPool
  | .get n addr =>
      let (p, s') := getRawIobuf growth s n addr
      let s' := { s' with active := s'.active ++ [p] }
      if (s.ioBufs = [] → addr ∉ s.live.map IOBuf.addr) ∧ totalCapacity s'.live < 2 ^ 64 then
        some s'
      else none
  | .release i =>
      match s.active[i]? with
      | some v => some (ioBufDeleter maxPoolSize { s with active := s.active.eraseIdx i } v)
      | none => none
  | .grow i readedLen untilSize =>
      match s.active[i]? with
      | some v =>
          let s' := { s with active := s.active.set i (v.resize growth (v.size * 2)) }
          if readedLen ≤ v.size ∧ v.size - readedLen < untilSize ∧
              totalCapacity s'.live < 2 ^ 64 then some s'
          else none
      | none => none

end IoBufPool

end Snova
