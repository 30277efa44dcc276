import Mathlib.Data.List.Basic
import Mathlib.Tactic.Common

/-!
# Memory regions

A region is an array of fixed size.  A part of it is read with `slice`, and `store` and
`moveToFront` write into it; a write carries the proof that it stays inside, so a write that does
not cannot be expressed.
-/

namespace Snova

structure Region (α : Type*) (size : ℕ) where
  cells : List α
  length_cells : cells.length = size

namespace Region

variable {α : Type*} {size : ℕ}

/-- The cells `[off, off + len)`. -/
def slice (r : Region α size) (off len : ℕ) : List α := (r.cells.drop off).take len

/-- Overwrite the cells from `pos` on. -/
def store (r : Region α size) (pos : ℕ) (xs : List α) (h : pos + xs.length ≤ size) :
    Region α size where
  cells := r.cells.take pos ++ (xs ++ r.cells.drop (pos + xs.length))
  length_cells := by
    rw [List.length_append, List.length_append, List.length_take, List.length_drop,
      r.length_cells]
    omega

lemma length_slice (r : Region α size) {off len : ℕ} (h : off + len ≤ size) :
    (r.slice off len).length = len := by
  rw [slice, List.length_take, List.length_drop, r.length_cells]
  omega

/-- `memmove` of the cells `[off, off + len)` to the front. -/
def moveToFront (r : Region α size) (off len : ℕ) (h : off + len ≤ size) : Region α size :=
  r.store 0 (r.slice off len) (by rw [r.length_slice h]; omega)

/-- A part of the front is a part of what stands there. -/
lemma slice_of_front (r : Region α size) {off len n : ℕ} (h : off + len ≤ n) :
    r.slice off len = ((r.slice 0 n).drop off).take len := by
  simp only [slice, List.drop_zero, List.drop_take, List.take_take]
  congr 1
  omega

/-- What is stored at the end of the front extends it. -/
lemma slice_store (r : Region α size) (pos : ℕ) (xs : List α) (h : pos + xs.length ≤ size) :
    (r.store pos xs h).slice 0 (pos + xs.length) = r.slice 0 pos ++ xs := by
  have hpos : (r.cells.take pos).length = pos := by
    rw [List.length_take, r.length_cells]
    omega
  have hfront : (r.cells.take pos ++ xs).length = pos + xs.length := by
    rw [List.length_append, hpos]
  simp only [slice, store, List.drop_zero]
  rw [← List.append_assoc, ← hfront, List.take_left]

lemma slice_moveToFront (r : Region α size) {off len : ℕ} (h : off + len ≤ size) :
    (r.moveToFront off len h).slice 0 len = r.slice off len := by
  have hstore := r.slice_store 0 (r.slice off len) (by rw [r.length_slice h]; omega)
  simp only [r.length_slice h, Nat.zero_add] at hstore
  rw [moveToFront, hstore]
  simp [slice]

end Region

end Snova
