import Mathlib.Algebra.Order.BigOperators.Group.List
import Mathlib.Data.List.Perm.Basic
import Snova.Model.IoBufPool
import Snova.Model.ReadUntil

/-!
# The pool's accounts

`g_iobuf_pool_bytes`, `g_active_iobuf_num` and the size of the pool are kept by every step (`Kept`),
and so are the addresses: no buffer is in use twice, or in use and in the pool.
`g_active_iobuf_bytes` is not.  A buffer is added with the capacity it has when it is handed out and
taken off with the capacity it has when it is released, so the sum is right exactly as long as no
buffer in use is given more storage (`Steady`).  `read_until` does that.
-/

namespace Snova

namespace IOBuf

variable {growth : Growth} {v : IOBuf} {n : ℕ}

@[simp] lemma resize_addr : (v.resize growth n).addr = v.addr := by
  rw [resize]
  split
  · rfl
  · rfl

@[simp] lemma resize_size : (v.resize growth n).size = n := by
  rw [resize]
  split
  · rfl
  · rfl

lemma ite_resize_addr {c : Prop} [Decidable c] :
    (if c then v.resize growth n else v).addr = v.addr := by
  split
  · exact resize_addr
  · rfl

lemma ite_resize_size :
    (if v.size < n then v.resize growth n else v).size = if v.size < n then n else v.size := by
  split
  · exact resize_size
  · rfl

lemma resize_capacity_of_le (h : n ≤ v.capacity) : (v.resize growth n).capacity = v.capacity := by
  rw [resize, dif_pos h]

lemma lt_resize_capacity (h : v.capacity < n) : v.capacity < (v.resize growth n).capacity := by
  rw [resize, dif_neg (Nat.not_le_of_lt h)]
  exact Nat.lt_of_lt_of_le h (growth.le_next _ _ _)

end IOBuf

namespace IoBufPool

open scoped List

variable {maxPoolSize : ℕ} {growth : Growth} {s t : IoBufPool} {a : IoBufPoolAction}
  {bufs : List IOBuf} {v w : IOBuf} {i n addr : ℕ}

/-! ## Capacities -/

@[simp] lemma totalCapacity_nil : totalCapacity [] = 0 := rfl

@[simp] lemma totalCapacity_cons (v : IOBuf) (bufs : List IOBuf) :
    totalCapacity (v :: bufs) = v.capacity + totalCapacity bufs := rfl

@[simp] lemma totalCapacity_append (bufs bufs' : List IOBuf) :
    totalCapacity (bufs ++ bufs') = totalCapacity bufs + totalCapacity bufs' := by
  rw [totalCapacity, List.map_append, List.sum_append]
  rfl

lemma totalCapacity_perm {bufs' : List IOBuf} (h : bufs ~ bufs') :
    totalCapacity bufs = totalCapacity bufs' :=
  (h.map IOBuf.capacity).sum_eq

/-- A buffer and the others. -/
lemma perm_cons_eraseIdx (h : bufs[i]? = some v) : bufs ~ v :: bufs.eraseIdx i := by
  obtain ⟨hi, rfl⟩ := List.getElem?_eq_some_iff.mp h
  exact (List.getElem_cons_eraseIdx_perm hi).symm

/-- A buffer that has changed and the others. -/
lemma set_perm_cons_eraseIdx (h : bufs[i]? = some v) (w : IOBuf) :
    bufs.set i w ~ w :: bufs.eraseIdx i := by
  obtain ⟨hi, -⟩ := List.getElem?_eq_some_iff.mp h
  exact List.set_perm_cons_eraseIdx hi w

/-! ## What a step does -/

/-- What `get_raw_iobuf` hands out is large enough. -/
lemma le_getRawIobuf (pool : List ℕ) (n : ℕ) :
    max n (kMaxChunkSize + kReservedBufferSize) ≤ (Snova.getRawIobuf pool n).1 := by
  rw [Snova.getRawIobuf]
  dsimp only
  split
  · split
    · omega
    · omega
  · split
    · omega
    · omega

/-- Its size does not depend on capacities. -/
lemma getRawIobuf_size (growth : Growth) (s : IoBufPool) (n addr : ℕ) :
    (getRawIobuf growth s n addr).1.size
      = (Snova.getRawIobuf (s.ioBufs.map IOBuf.size) n).1 := by
  have htake : (s.takeIobuf addr).1.size = (s.ioBufs.map IOBuf.size).headD 0 := by
    rw [takeIobuf]
    cases s.ioBufs with
    | nil => rfl
    | cons p ioBufs => rfl
  rw [Snova.getRawIobuf]
  dsimp only
  rw [← htake]
  exact IOBuf.ite_resize_size

/-- It is new if the pool is empty. -/
lemma getRawIobuf_of_nil (growth : Growth) (n addr : ℕ) (h : s.ioBufs = []) :
    (getRawIobuf growth s n addr).1.addr = addr ∧
      (getRawIobuf growth s n addr).2 = ⟨[], s.poolBytes,
        s.activeBytes + UInt64.ofNat (getRawIobuf growth s n addr).1.capacity, s.activeNum + 1,
        s.active⟩ := by
  obtain ⟨ioBufs, poolBytes, activeBytes, activeNum, active⟩ := s
  obtain rfl : ioBufs = [] := h
  exact ⟨IOBuf.ite_resize_addr, rfl⟩

/-- And the top of the pool if it is not. -/
lemma getRawIobuf_of_cons (growth : Growth) (n addr : ℕ) {p : IOBuf} {ioBufs : List IOBuf}
    (h : s.ioBufs = p :: ioBufs) :
    (getRawIobuf growth s n addr).1.addr = p.addr ∧
      (getRawIobuf growth s n addr).2 = ⟨ioBufs, s.poolBytes - UInt64.ofNat p.capacity,
        s.activeBytes + UInt64.ofNat (getRawIobuf growth s n addr).1.capacity, s.activeNum + 1,
        s.active⟩ := by
  obtain ⟨pool, poolBytes, activeBytes, activeNum, active⟩ := s
  obtain rfl : pool = p :: ioBufs := h
  exact ⟨IOBuf.ite_resize_addr, rfl⟩

/-- The steps, with all they change. -/
inductive Moves (maxPoolSize : ℕ) (growth : Growth) (s : IoBufPool) :
    IoBufPoolAction → IoBufPool → Prop
  | new {n addr : ℕ} {p : IOBuf}
      (hsize : p.size = (Snova.getRawIobuf (s.ioBufs.map IOBuf.size) n).1)
      (hpool : s.ioBufs = []) (haddr : p.addr ∉ s.live.map IOBuf.addr) :
      Moves maxPoolSize growth s (.get n addr) ⟨[], s.poolBytes,
        s.activeBytes + UInt64.ofNat p.capacity, s.activeNum + 1, s.active ++ [p]⟩
  | reuse {n addr : ℕ} {p q : IOBuf} {ioBufs : List IOBuf}
      (hsize : p.size = (Snova.getRawIobuf (s.ioBufs.map IOBuf.size) n).1)
      (hpool : s.ioBufs = q :: ioBufs) (haddr : p.addr = q.addr) :
      Moves maxPoolSize growth s (.get n addr) ⟨ioBufs, s.poolBytes - UInt64.ofNat q.capacity,
        s.activeBytes + UInt64.ofNat p.capacity, s.activeNum + 1, s.active ++ [p]⟩
  | push {i : ℕ} {v : IOBuf} (hv : s.active[i]? = some v) (hroom : s.ioBufs.length < maxPoolSize) :
      Moves maxPoolSize growth s (.release i) ⟨v :: s.ioBufs,
        s.poolBytes + UInt64.ofNat v.capacity, s.activeBytes - UInt64.ofNat v.capacity,
        s.activeNum - 1, s.active.eraseIdx i⟩
  | delete {i : ℕ} {v : IOBuf} (hv : s.active[i]? = some v)
      (hfull : ¬ s.ioBufs.length < maxPoolSize) :
      Moves maxPoolSize growth s (.release i) ⟨s.ioBufs, s.poolBytes,
        s.activeBytes - UInt64.ofNat v.capacity, s.activeNum - 1, s.active.eraseIdx i⟩
  | grow {i readedLen untilSize : ℕ} {v : IOBuf} (hv : s.active[i]? = some v)
      (hroom : readedLen ≤ v.size ∧ v.size - readedLen < untilSize) :
      Moves maxPoolSize growth s (.grow i readedLen untilSize)
        { s with active := s.active.set i (v.resize growth (v.size * 2)) }

lemma moves_of_step (h : step maxPoolSize growth s a = some t) :
    Moves maxPoolSize growth s a t ∧
      (totalCapacity s.live < 2 ^ 64 → totalCapacity t.live < 2 ^ 64) := by
  cases a with
  | get n addr =>
      rw [step] at h
      dsimp only at h
      split at h
      · next hfits =>
          obtain rfl := Option.some.inj h
          refine ⟨?_, fun _ => hfits.2⟩
          cases hpool : s.ioBufs with
          | nil =>
              obtain ⟨haddr, hsnd⟩ := getRawIobuf_of_nil growth n addr hpool
              rw [hsnd]
              rw [← haddr] at hfits
              exact .new (getRawIobuf_size growth s n addr) hpool (hfits.1 hpool)
          | cons p ioBufs =>
              obtain ⟨haddr, hsnd⟩ := getRawIobuf_of_cons growth n addr hpool
              rw [hsnd]
              exact .reuse (getRawIobuf_size growth s n addr) hpool haddr
      · cases h
  | release i =>
      rw [step] at h
      split at h
      · next v hv =>
          obtain rfl := Option.some.inj h
          have hperm := (perm_cons_eraseIdx hv).append_right s.ioBufs
          rw [live, totalCapacity_perm hperm, List.cons_append, ioBufDeleter]
          dsimp only
          split
          · next hroom =>
              refine ⟨.push hv hroom, fun hmem => ?_⟩
              show totalCapacity (s.active.eraseIdx i ++ v :: s.ioBufs) < 2 ^ 64
              rwa [totalCapacity_perm List.perm_middle]
          · next hfull =>
              refine ⟨.delete hv hfull, fun hmem => ?_⟩
              show totalCapacity (s.active.eraseIdx i ++ s.ioBufs) < 2 ^ 64
              exact Nat.lt_of_le_of_lt (Nat.le_add_left _ _) hmem
      · cases h
  | grow i readedLen untilSize =>
      rw [step] at h
      split at h
      · next v hv =>
          dsimp only at h
          split at h
          · next hfits =>
              obtain rfl := Option.some.inj h
              exact ⟨.grow hv ⟨hfits.1, hfits.2.1⟩, fun _ => hfits.2.2⟩
          · cases h
      · cases h

/-! ## What every step keeps -/

/-- The accounts that do not depend on what is done with the buffers. -/
structure Kept (maxPoolSize : ℕ) (s : IoBufPool) : Prop where
  poolBytes : s.poolBytes = UInt64.ofNat (totalCapacity s.ioBufs)
  activeNum : s.activeNum = UInt32.ofNat s.active.length
  pool_le : s.ioBufs.length ≤ maxPoolSize
  nodup : (s.live.map IOBuf.addr).Nodup
  memory : totalCapacity s.live < 2 ^ 64

lemma kept_init : Kept maxPoolSize init := ⟨rfl, rfl, Nat.zero_le _, List.nodup_nil, by decide⟩

lemma ofNat_length_append_singleton (v : IOBuf) :
    UInt32.ofNat (bufs ++ [v]).length = UInt32.ofNat bufs.length + 1 := by
  rw [List.length_append, List.length_singleton, UInt32.ofNat_add]
  rfl

lemma ofNat_length_eraseIdx (h : bufs[i]? = some v) :
    UInt32.ofNat (bufs.eraseIdx i).length = UInt32.ofNat bufs.length - 1 := by
  rw [(perm_cons_eraseIdx h).length_eq, List.length_cons, UInt32.ofNat_add]
  exact (UInt32.add_sub_cancel _ _).symm

lemma Moves.activeNum (h : Moves maxPoolSize growth s a t)
    (hs : s.activeNum = UInt32.ofNat s.active.length) :
    t.activeNum = UInt32.ofNat t.active.length := by
  cases h with
  | new hsize hpool haddr => rw [ofNat_length_append_singleton, ← hs]
  | reuse hsize hpool haddr => rw [ofNat_length_append_singleton, ← hs]
  | push hv hroom => rw [ofNat_length_eraseIdx hv, ← hs]
  | delete hv hfull => rw [ofNat_length_eraseIdx hv, ← hs]
  | grow hv hroom =>
      rw [List.length_set]
      exact hs

lemma Moves.poolBytes (h : Moves maxPoolSize growth s a t)
    (hs : s.poolBytes = UInt64.ofNat (totalCapacity s.ioBufs)) :
    t.poolBytes = UInt64.ofNat (totalCapacity t.ioBufs) := by
  cases h with
  | new hsize hpool haddr =>
      rw [hpool] at hs
      exact hs
  | reuse hsize hpool haddr =>
      rw [hpool, totalCapacity_cons, UInt64.ofNat_add, UInt64.add_comm] at hs
      rw [hs, UInt64.add_sub_cancel]
  | push hv hroom => rw [totalCapacity_cons, UInt64.ofNat_add, UInt64.add_comm, hs]
  | delete hv hfull => exact hs
  | grow hv hroom => exact hs

lemma Moves.pool_le (h : Moves maxPoolSize growth s a t) (hs : s.ioBufs.length ≤ maxPoolSize) :
    t.ioBufs.length ≤ maxPoolSize := by
  cases h with
  | new hsize hpool haddr => exact Nat.zero_le _
  | reuse hsize hpool haddr =>
      rw [hpool, List.length_cons] at hs
      exact Nat.le_of_succ_le hs
  | push hv hroom => exact hroom
  | delete hv hfull => exact hs
  | grow hv hroom => exact hs

/-- No address is used twice. -/
lemma Moves.nodup (h : Moves maxPoolSize growth s a t) (hs : (s.live.map IOBuf.addr).Nodup) :
    (t.live.map IOBuf.addr).Nodup := by
  cases h with
  | new hsize hpool haddr =>
      rename_i p
      have hnodup := List.nodup_cons.mpr ⟨haddr, hs⟩
      rw [← List.map_cons] at hnodup
      refine ((List.Perm.map _ ?_).nodup_iff).mp hnodup
      show p :: s.live ~ s.active ++ [p] ++ []
      rw [live, hpool, List.append_nil, List.append_nil]
      exact (List.perm_append_singleton p s.active).symm
  | reuse hsize hpool haddr =>
      rename_i p q ioBufs
      rw [live, hpool, List.map_append, List.map_cons] at hs
      show ((s.active ++ [p] ++ ioBufs).map IOBuf.addr).Nodup
      rw [List.append_assoc, List.singleton_append, List.map_append, List.map_cons, haddr]
      exact hs
  | push hv hroom =>
      rename_i i v
      have hperm := (perm_cons_eraseIdx hv).append_right s.ioBufs
      refine ((List.Perm.map _ ?_).nodup_iff).mp hs
      show s.active ++ s.ioBufs ~ s.active.eraseIdx i ++ v :: s.ioBufs
      exact hperm.trans List.perm_middle.symm
  | delete hv hfull =>
      have hperm := (perm_cons_eraseIdx hv).append_right s.ioBufs
      have hnodup := ((hperm.map _).nodup_iff).mp hs
      exact (List.nodup_cons.mp hnodup).2
  | grow hv hroom =>
      rename_i v
      have hold := ((perm_cons_eraseIdx hv).append_right s.ioBufs).map IOBuf.addr
      have hnew := ((set_perm_cons_eraseIdx hv (v.resize growth (v.size * 2))).append_right
        s.ioBufs).map IOBuf.addr
      rw [List.cons_append, List.map_cons] at hold hnew
      rw [IOBuf.resize_addr] at hnew
      exact (hnew.nodup_iff).mpr ((hold.nodup_iff).mp hs)

lemma Kept.of_step (h : Kept maxPoolSize s) (hstep : step maxPoolSize growth s a = some t) :
    Kept maxPoolSize t := by
  obtain ⟨hmoves, hmemory⟩ := moves_of_step hstep
  exact ⟨hmoves.poolBytes h.poolBytes, hmoves.activeNum h.activeNum, hmoves.pool_le h.pool_le,
    hmoves.nodup h.nodup, hmemory h.memory⟩

lemma kept_of_exec {as : List IoBufPoolAction}
    (h : exec (step maxPoolSize growth) init as = some s) : Kept maxPoolSize s :=
  exec_invariant (fun _ _ _ hkept hstep => hkept.of_step hstep) kept_init h

/-! ## Sizes -/

/-- The sizes of the buffers. -/
def sizes (s : IoBufPool) : IoBufs := ⟨s.ioBufs.map IOBuf.size, s.active.map IOBuf.size⟩

/-- The same action on sizes. -/
def sizeAction : IoBufPoolAction → IoBufAction
  | .get n _ => .get n
  | .release i => .release i
  | .grow i readedLen untilSize => .grow i readedLen untilSize

lemma getElem?_map_size (h : bufs[i]? = some v) : (bufs.map IOBuf.size)[i]? = some v.size := by
  rw [List.getElem?_map, h, Option.map_some]

lemma Moves.sizes (h : Moves maxPoolSize growth s a t) :
    IoBufs.step maxPoolSize s.sizes (sizeAction a) = some t.sizes := by
  have hget : ∀ (n : ℕ) (p : IOBuf), p.size = (Snova.getRawIobuf (s.ioBufs.map IOBuf.size) n).1 →
      IoBufs.step maxPoolSize s.sizes (.get n)
        = some ⟨(s.ioBufs.map IOBuf.size).tail, (s.active ++ [p]).map IOBuf.size⟩ := by
    intro n p hsize
    rw [List.map_append, List.map_singleton, hsize]
    rfl
  cases h with
  | new hsize hpool haddr =>
      refine (hget _ _ hsize).trans ?_
      rw [hpool]
      rfl
  | reuse hsize hpool haddr =>
      refine (hget _ _ hsize).trans ?_
      rw [hpool]
      rfl
  | push hv hroom =>
      rw [sizeAction, IoBufs.step, IoBufPool.sizes, getElem?_map_size hv]
      dsimp only
      rw [Snova.ioBufDeleter, List.length_map, if_pos hroom, List.eraseIdx_map]
      rfl
  | delete hv hfull =>
      rw [sizeAction, IoBufs.step, IoBufPool.sizes, getElem?_map_size hv]
      dsimp only
      rw [Snova.ioBufDeleter, List.length_map, if_neg hfull, List.eraseIdx_map]
      rfl
  | grow hv hroom =>
      rw [sizeAction, IoBufs.step, IoBufPool.sizes, getElem?_map_size hv]
      dsimp only
      rw [if_pos hroom, IoBufPool.sizes, List.map_set, IOBuf.resize_size]

/-- **Refinement.**  What becomes of the sizes does not depend on the capacities. -/
theorem exec_sizes {as : List IoBufPoolAction}
    (h : exec (step maxPoolSize growth) init as = some s) :
    exec (IoBufs.step maxPoolSize) IoBufs.init (as.map sizeAction) = some s.sizes :=
  exec_map (fun _ _ _ hstep => (moves_of_step hstep).1.sizes) h

/-- The buffer of `read_until` when it waits or returns. -/
lemma loop_buf_length (delim buf : Bytes) (readedLen : ℕ) :
    (ReadUntil.loop delim buf readedLen).buf.length =
      if find delim (buf.take readedLen) = none ∧ buf.length - readedLen < delim.length then
        buf.length * 2
      else buf.length := by
  rw [ReadUntil.loop]
  cases find delim (buf.take readedLen) with
  | some pos => exact (if_neg fun h => by cases h.1).symm
  | none =>
      by_cases hlt : buf.length - readedLen < delim.length
      · rw [if_pos ⟨rfl, hlt⟩]
        dsimp only
        rw [if_pos hlt, List.length_append, List.length_replicate, Nat.mul_two]
      · rw [if_neg fun h => hlt h.2]
        dsimp only
        rw [if_neg hlt]

/-- `read_until` enlarges its buffer by the action `grow`. -/
theorem exists_grow_of_loop {delim buf : Bytes} {readedLen : ℕ} (hv : s.active[i]? = some v)
    (hsize : v.size = buf.length) (hreaded : readedLen ≤ buf.length)
    (hgrown : (ReadUntil.loop delim buf readedLen).buf.length ≠ buf.length)
    (hmemory : totalCapacity { s with
      active := s.active.set i (v.resize growth (v.size * 2)) }.live < 2 ^ 64) :
    ∃ t w, step maxPoolSize growth s (.grow i readedLen delim.length) = some t ∧
      t.active[i]? = some w ∧ w.size = (ReadUntil.loop delim buf readedLen).buf.length := by
  rw [loop_buf_length] at hgrown ⊢
  by_cases hroom : find delim (buf.take readedLen) = none ∧ buf.length - readedLen < delim.length
  · obtain ⟨hi, -⟩ := List.getElem?_eq_some_iff.mp hv
    refine ⟨{ s with active := s.active.set i (v.resize growth (v.size * 2)) },
      v.resize growth (v.size * 2), ?_, List.getElem?_set_self hi, ?_⟩
    · rw [step, hv]
      exact if_pos ⟨hsize ▸ hreaded, hsize ▸ hroom.2, hmemory⟩
    · rw [IOBuf.resize_size, hsize, if_pos hroom]
  · rw [if_neg hroom] at hgrown
    exact absurd rfl hgrown

/-! ## What a use of a buffer may change -/

/-- A buffer in use is not given more storage, and `g_active_iobuf_num` has room for the buffers in
use. -/
def Steady (s : IoBufPool) : IoBufPoolAction → Prop
  | .get _ _ => s.active.length + 1 < 2 ^ 32
  | .release _ => True
  | .grow i _ _ => ∀ v ∈ s.active[i]?, v.size * 2 ≤ v.capacity

instance (s : IoBufPool) : DecidablePred s.Steady
  | .get _ _ => inferInstanceAs (Decidable (_ < _))
  | .release _ => .isTrue trivial
  | .grow i _ _ => inferInstanceAs (Decidable (∀ v ∈ s.active[i]?, v.size * 2 ≤ v.capacity))

/-- The bytes in use are the sum of the capacities. -/
lemma Moves.activeBytes (h : Moves maxPoolSize growth s a t) (hsteady : s.Steady a)
    (hs : s.activeBytes = UInt64.ofNat (totalCapacity s.active)) :
    t.activeBytes = UInt64.ofNat (totalCapacity t.active) := by
  have hadd : ∀ p : IOBuf, s.activeBytes + UInt64.ofNat p.capacity
      = UInt64.ofNat (totalCapacity (s.active ++ [p])) := by
    intro p
    rw [hs, totalCapacity_append, totalCapacity_cons, totalCapacity_nil, UInt64.ofNat_add]
    rfl
  have hsub : ∀ {i v}, s.active[i]? = some v → s.activeBytes - UInt64.ofNat v.capacity
      = UInt64.ofNat (totalCapacity (s.active.eraseIdx i)) := by
    intro i v hv
    rw [hs, totalCapacity_perm (perm_cons_eraseIdx hv), totalCapacity_cons, UInt64.ofNat_add,
      UInt64.add_comm, UInt64.add_sub_cancel]
  cases h with
  | new hsize hpool haddr => exact hadd _
  | reuse hsize hpool haddr => exact hadd _
  | push hv hroom => exact hsub hv
  | delete hv hfull => exact hsub hv
  | grow hv hroom =>
      rename_i v
      rw [totalCapacity_perm (set_perm_cons_eraseIdx hv _), totalCapacity_cons,
        IOBuf.resize_capacity_of_le (hsteady v hv), ← totalCapacity_cons,
        ← totalCapacity_perm (perm_cons_eraseIdx hv)]
      exact hs

lemma Moves.active_lt (h : Moves maxPoolSize growth s a t) (hsteady : s.Steady a)
    (hs : s.active.length < 2 ^ 32) : t.active.length < 2 ^ 32 := by
  have hsub : ∀ i, (s.active.eraseIdx i).length < 2 ^ 32 := fun i =>
    Nat.lt_of_le_of_lt (List.length_eraseIdx_le _ _) hs
  cases h with
  | new hsize hpool haddr =>
      rw [List.length_append]
      exact hsteady
  | reuse hsize hpool haddr =>
      rw [List.length_append]
      exact hsteady
  | push hv hroom => exact hsub _
  | delete hv hfull => exact hsub _
  | grow hv hroom => rwa [List.length_set]

/-- What a run of such steps keeps besides. -/
structure Balanced (s : IoBufPool) : Prop where
  activeBytes : s.activeBytes = UInt64.ofNat (totalCapacity s.active)
  active_lt : s.active.length < 2 ^ 32

lemma balanced_of_exec {as : List IoBufPoolAction}
    (h : exec (step maxPoolSize growth) init as = some s)
    (hsteady : Along (step maxPoolSize growth) Steady init as) : Balanced s := by
  have hinit : Balanced init := ⟨rfl, by decide⟩
  refine exec_invariant_along (fun s a t hs hsteady hstep => ?_) hinit hsteady h
  obtain ⟨hmoves, -⟩ := moves_of_step hstep
  exact ⟨hmoves.activeBytes hsteady hs.activeBytes, hmoves.active_lt hsteady hs.active_lt⟩

/-- The accounts, as one expects them. -/
structure Accounts (maxPoolSize : ℕ) (growth : Growth) (s : IoBufPool) : Prop where
  poolBytes : s.poolBytes.toNat = totalCapacity s.ioBufs
  activeNum : s.activeNum.toNat = s.active.length
  no_underflow : ∀ v ∈ s.active, v.capacity ≤ s.activeBytes.toNat
  idle : s.active = [] → s.activeBytes = 0
  pool_le : s.ioBufs.length ≤ maxPoolSize
  handed_out : ∀ n addr t, step maxPoolSize growth s (.get n addr) = some t →
    ∃ p, t.active = s.active ++ [p] ∧ max n (kMaxChunkSize + kReservedBufferSize) ≤ p.size ∧
      p.addr ∉ t.ioBufs.map IOBuf.addr

/-- What `get_iobuf` hands out. -/
lemma Kept.handed_out (h : Kept maxPoolSize s)
    (hstep : step maxPoolSize growth s (.get n addr) = some t) :
    ∃ p, t.active = s.active ++ [p] ∧ max n (kMaxChunkSize + kReservedBufferSize) ≤ p.size ∧
      p.addr ∉ t.ioBufs.map IOBuf.addr := by
  have hnodup := (h.of_step hstep).nodup
  have happ : ∀ p, t.active = s.active ++ [p] → p.addr ∉ t.ioBufs.map IOBuf.addr := by
    intro p hactive hmem
    rw [live, List.map_append] at hnodup
    refine (List.nodup_append.mp hnodup).2.2 p.addr ?_ p.addr hmem rfl
    rw [hactive]
    exact List.mem_map_of_mem (List.mem_append_right _ List.mem_cons_self)
  obtain ⟨hmoves, -⟩ := moves_of_step hstep
  have hle := le_getRawIobuf (s.ioBufs.map IOBuf.size) n
  cases hmoves with
  | new hsize hpool haddr => exact ⟨_, rfl, hsize ▸ hle, happ _ rfl⟩
  | reuse hsize hpool haddr => exact ⟨_, rfl, hsize ▸ hle, happ _ rfl⟩

/-- **The accounts of the pool.**  In every run in which no buffer in use is given more storage and
fewer than 2^32 are in use, in every state reached: `g_iobuf_pool_bytes` is the sum of the
capacities in the pool, `g_active_iobuf_num` is the number of buffers in use, the next release does
not make `g_active_iobuf_bytes` wrap around, which is 0 if no buffer is in use, the pool is not
too large, and the next buffer that is handed out is large enough and not in the pool. -/
theorem accounts_of_steady {as : List IoBufPoolAction}
    (h : exec (step maxPoolSize growth) init as = some s)
    (hsteady : Along (step maxPoolSize growth) Steady init as) :
    Accounts maxPoolSize growth s := by
  have hkept := kept_of_exec h
  obtain ⟨hbytes, hlt⟩ := balanced_of_exec h hsteady
  have hmemory := hkept.memory
  rw [live, totalCapacity_append] at hmemory
  have hactive : s.activeBytes.toNat = totalCapacity s.active := by
    rw [hbytes, UInt64.toNat_ofNat', Nat.mod_eq_of_lt (by omega)]
  refine ⟨?_, ?_, fun v hv => ?_, fun hnil => ?_, hkept.pool_le, fun n addr t => hkept.handed_out⟩
  · rw [hkept.poolBytes, UInt64.toNat_ofNat', Nat.mod_eq_of_lt (by omega)]
  · rw [hkept.activeNum, UInt32.toNat_ofNat', Nat.mod_eq_of_lt hlt]
  · rw [hactive]
    exact List.single_le_sum (fun _ _ => Nat.zero_le _) _ (List.mem_map_of_mem hv)
  · rw [hbytes, hnil]
    rfl

/-! ### The condition is needed -/

lemma ioBufDeleter_active (maxPoolSize : ℕ) (s : IoBufPool) (v : IOBuf) :
    (ioBufDeleter maxPoolSize s v).active = s.active ∧
      (ioBufDeleter maxPoolSize s v).activeBytes = s.activeBytes - UInt64.ofNat v.capacity := by
  rw [ioBufDeleter]
  dsimp only
  split
  · exact ⟨rfl, rfl⟩
  · exact ⟨rfl, rfl⟩

/-- All buffers in use are released. -/
lemma exec_release_all (maxPoolSize : ℕ) (growth : Growth) (hactive : s.active = bufs) :
    ∃ t, exec (step maxPoolSize growth) s (List.replicate bufs.length (.release 0)) = some t ∧
      t.active = [] ∧ t.activeBytes = s.activeBytes - UInt64.ofNat (totalCapacity bufs) := by
  induction bufs generalizing s with
  | nil => exact ⟨s, rfl, hactive, (UInt64.sub_zero _).symm⟩
  | cons v bufs ih =>
      have hstep : step maxPoolSize growth s (.release 0)
          = some (ioBufDeleter maxPoolSize { s with active := bufs } v) := by
        rw [step, hactive]
        rfl
      obtain ⟨hkeep, hbytes⟩ := ioBufDeleter_active maxPoolSize { s with active := bufs } v
      obtain ⟨t, ht, hnil, htotal⟩ := ih hkeep
      refine ⟨t, ?_, hnil, ?_⟩
      · rw [List.length_cons, List.replicate_succ, exec_cons_of_step hstep, ht]
      · rw [htotal, hbytes, totalCapacity_cons, UInt64.ofNat_add, UInt64.sub_eq_iff_eq_add,
          UInt64.sub_eq_iff_eq_add, UInt64.add_assoc, UInt64.add_comm (UInt64.ofNat _),
          UInt64.sub_add_cancel]

/-- A buffer that does not have the storage is given more. -/
lemma Moves.lt_totalCapacity_of_not_steady {readedLen untilSize : ℕ}
    (h : Moves maxPoolSize growth s (.grow i readedLen untilSize) t)
    (hnot : ¬ s.Steady (.grow i readedLen untilSize)) :
    totalCapacity s.active < totalCapacity t.active := by
  cases h with
  | grow hv hroom =>
      rename_i v
      have hlarger : v.capacity < v.size * 2 := by
        by_contra hge
        refine hnot fun w hw => ?_
        rw [hv] at hw
        exact Option.some.inj hw ▸ Nat.le_of_not_lt hge
      have hmore : v.capacity < (v.resize growth (v.size * 2)).capacity :=
        IOBuf.lt_resize_capacity hlarger
      show totalCapacity s.active < totalCapacity (s.active.set i (v.resize growth (v.size * 2)))
      rw [totalCapacity_perm (set_perm_cons_eraseIdx hv _),
        totalCapacity_perm (perm_cons_eraseIdx hv), totalCapacity_cons, totalCapacity_cons]
      omega

/-- Where a buffer in use is given more storage, `g_active_iobuf_bytes` is not 0 when all buffers
have been released. -/
theorem not_idle_of_growth {as : List IoBufPoolAction} {readedLen untilSize : ℕ}
    (h : exec (step maxPoolSize growth) init as = some s)
    (hsteady : Along (step maxPoolSize growth) Steady init as)
    (hgrow : step maxPoolSize growth s (.grow i readedLen untilSize) = some t)
    (hnot : ¬ s.Steady (.grow i readedLen untilSize)) :
    ∃ k u, exec (step maxPoolSize growth) t (List.replicate k (.release 0)) = some u ∧
      u.active = [] ∧ u.activeBytes ≠ 0 := by
  have hmemory := ((kept_of_exec h).of_step hgrow).memory
  rw [live, totalCapacity_append] at hmemory
  obtain ⟨u, hu, hnil, hbytes⟩ := exec_release_all maxPoolSize growth (rfl : t.active = t.active)
  obtain ⟨hmoves, -⟩ := moves_of_step hgrow
  have hsame : t.activeBytes = s.activeBytes := by cases hmoves with | grow hv hroom => rfl
  have hlarger := hmoves.lt_totalCapacity_of_not_steady hnot
  refine ⟨_, u, hu, hnil, fun hzero => ?_⟩
  rw [hbytes, hsame, (balanced_of_exec h hsteady).activeBytes, UInt64.sub_eq_iff_eq_add,
    UInt64.zero_add] at hzero
  have heq := congrArg UInt64.toNat hzero
  rw [UInt64.toNat_ofNat', UInt64.toNat_ofNat', Nat.mod_eq_of_lt (by omega),
    Nat.mod_eq_of_lt (by omega)] at heq
  omega

/-- What a vector of the C++ library that GCC comes with takes: at least twice its size. -/
def doubling : Growth := ⟨fun size _ n => max (2 * size) n, fun _ _ _ => le_max_right _ _⟩

/-- Two buffers are handed out, one comes back and is handed out again. -/
theorem accounts_of_steady_reuse :
    ∃ s, exec (step 64 doubling) init [.get 10 1, .get 9000 2, .release 0, .get 20 3] = some s ∧
      Accounts 64 doubling s := by
  have hrun : exec (step 64 doubling) init [.get 10 1, .get 9000 2, .release 0, .get 20 3]
      = some ⟨[], 0, 17448, 2, [⟨2, 9000, 9000, le_rfl⟩, ⟨1, 8448, 8448, le_rfl⟩]⟩ := by
    decide +kernel
  have hsteady : Along (step 64 doubling) Steady init
      [.get 10 1, .get 9000 2, .release 0, .get 20 3] := by
    decide +kernel
  exact ⟨_, hrun, accounts_of_steady hrun hsteady⟩

/-- `read_until` has read 8446 bytes without a delimiter of four bytes and doubles its buffer, which
is then released: nothing is in use, and `g_active_iobuf_bytes` has wrapped around. -/
theorem enlarged_buffer_underflows :
    ∃ s, exec (step 64 doubling) init [.get 8192 1, .grow 0 8446 4, .release 0] = some s ∧
      s.active = [] ∧ s.activeBytes.toNat = 2 ^ 64 - 8448 ∧ ¬ Accounts 64 doubling s := by
  have hrun : exec (step 64 doubling) init [.get 8192 1, .grow 0 8446 4, .release 0]
      = some ⟨[⟨1, 16896, 16896, le_rfl⟩], 16896, 0 - 8448, 0, []⟩ := by decide +kernel
  refine ⟨_, hrun, rfl, by decide +kernel, fun h => ?_⟩
  exact absurd (h.idle rfl) (by decide)

end IoBufPool

end Snova
