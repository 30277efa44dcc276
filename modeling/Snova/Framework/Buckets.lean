import Mathlib.Data.List.Perm.Basic
import Mathlib.Logic.Function.Basic

/-!
# A row of buckets

Items in `n` buckets.  An item is added to one bucket or a whole bucket is taken out, and what
matters is the contents of all of them together, up to order: `contents_update` is the one fact
behind both.
-/

namespace Snova

open scoped List

/-- What the first `n` buckets hold together. -/
def contents {α : Type*} (n : ℕ) (bucket : ℕ → List α) : List α := (List.range n).flatMap bucket

section Contents

variable {α : Type*} {n i : ℕ} {bucket : ℕ → List α}

lemma mem_contents {x : α} : x ∈ contents n bucket ↔ ∃ i < n, x ∈ bucket i := by
  simp [contents]

lemma contents_succ (n : ℕ) (bucket : ℕ → List α) :
    contents (n + 1) bucket = contents n bucket ++ bucket n := by
  simp [contents, List.range_succ]

lemma contents_update_of_le (h : n ≤ i) (l : List α) :
    contents n (Function.update bucket i l) = contents n bucket := by
  induction n with
  | zero => rfl
  | succ n ih =>
      rw [contents_succ, contents_succ, ih (by omega), Function.update_of_ne (by omega)]

/-- Replacing one bucket. -/
lemma contents_update (bucket : ℕ → List α) (h : i < n) (l : List α) :
    (contents n (Function.update bucket i l) ++ bucket i).Perm (l ++ contents n bucket) := by
  induction n with
  | zero => omega
  | succ n ih =>
      rw [contents_succ, contents_succ]
      by_cases hi : i = n
      · subst hi
        rw [contents_update_of_le (Nat.le_refl _), Function.update_self]
        calc contents i bucket ++ l ++ bucket i
            ~ l ++ contents i bucket ++ bucket i := List.perm_append_comm.append_right _
          _ = l ++ (contents i bucket ++ bucket i) := List.append_assoc _ _ _
      · rw [Function.update_of_ne (Ne.symm hi)]
        have hperm := ih (by omega)
        calc contents n (Function.update bucket i l) ++ bucket n ++ bucket i
            ~ contents n (Function.update bucket i l) ++ bucket i ++ bucket n := by
              rw [List.append_assoc, List.append_assoc]
              exact List.perm_append_comm.append_left _
          _ ~ l ++ contents n bucket ++ bucket n := hperm.append_right _
          _ = l ++ (contents n bucket ++ bucket n) := List.append_assoc _ _ _

/-- An item is put into a bucket. -/
lemma contents_insert (bucket : ℕ → List α) (h : i < n) (x : α) :
    (contents n (Function.update bucket i (bucket i ++ [x]))).Perm (x :: contents n bucket) := by
  have hperm := contents_update bucket h (bucket i ++ [x])
  refine (List.perm_append_left_iff (bucket i)).mp ?_
  calc bucket i ++ contents n (Function.update bucket i (bucket i ++ [x]))
      ~ contents n (Function.update bucket i (bucket i ++ [x])) ++ bucket i := List.perm_append_comm
    _ ~ bucket i ++ [x] ++ contents n bucket := hperm
    _ = bucket i ++ x :: contents n bucket := by simp

/-- A bucket is taken out. -/
lemma contents_takeOut (h : i < n) :
    (contents n (Function.update bucket i []) ++ bucket i).Perm (contents n bucket) :=
  contents_update bucket h []

end Contents

end Snova
