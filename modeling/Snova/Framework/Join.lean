import Mathlib.Data.List.Basic
import Mathlib.Algebra.Order.BigOperators.Group.List
import Mathlib.Algebra.Order.Ring.Nat
import Mathlib.Tactic.Common

/-!
# Joining with a separator

`List.intercalate [x]` of groups that were joined before.  Joining in two stages is joining at
once when no group is empty (`intercalate_map_intercalate`); an empty group leaves a separator too
many, so otherwise even the lengths differ (`length_joined_eq_iff`).
-/

namespace Snova

variable {α : Type*} (x : α)

lemma length_intercalate (ls : List (List α)) :
    ([x].intercalate ls).length = (ls.map List.length).sum + (ls.length - 1) := by
  induction ls with
  | nil => rfl
  | cons l ls ih =>
      cases ls with
      | nil => simp
      | cons l' ls =>
          rw [List.intercalate_cons_cons, List.length_append, List.length_append, ih]
          simp only [List.map_cons, List.sum_cons, List.length_cons, List.length_nil]
          omega

/-- A separator stands between two non-empty lists of parts. -/
lemma intercalate_append {ls ls' : List (List α)} (h : ls ≠ []) (h' : ls' ≠ []) :
    [x].intercalate (ls ++ ls') = [x].intercalate ls ++ x :: [x].intercalate ls' := by
  induction ls with
  | nil => exact absurd rfl h
  | cons l ls ih =>
      cases ls with
      | nil =>
          rw [List.singleton_append, List.intercalate_cons_of_ne_nil h',
            List.intercalate_singleton, List.append_assoc]
          rfl
      | cons l₂ ls =>
          rw [List.cons_append, List.intercalate_cons_of_ne_nil (by simp),
            List.intercalate_cons_cons, ih (List.cons_ne_nil _ _)]
          simp

/-- A group is not longer than the whole. -/
lemma length_intercalate_le_flatten {gs : List (List (List α))} {g : List (List α)}
    (h : g ∈ gs) : ([x].intercalate g).length ≤ ([x].intercalate gs.flatten).length := by
  have hsub : g.Sublist gs.flatten := List.sublist_flatten_of_mem h
  have hsum : (g.map List.length).sum ≤ (gs.flatten.map List.length).sum :=
    (hsub.map List.length).sum_le_sum fun _ _ => Nat.zero_le _
  have hlen := hsub.length_le
  rw [length_intercalate, length_intercalate]
  omega

/-- Groups that are joined, then joined with each other. -/
lemma intercalate_map_intercalate {gs : List (List (List α))} (h : ∀ g ∈ gs, g ≠ []) :
    [x].intercalate (gs.map ([x].intercalate ·)) = [x].intercalate gs.flatten := by
  induction gs with
  | nil => rfl
  | cons g gs ih =>
      have hrest := ih fun g' hg' => h g' (List.mem_cons_of_mem g hg')
      cases gs with
      | nil => simp
      | cons g' gs =>
          have hflat : (g' :: gs).flatten ≠ [] := by
            have hg' := h g' (List.mem_cons_of_mem g List.mem_cons_self)
            simp [hg']
          have hcons : (g :: g' :: gs).flatten = g ++ (g' :: gs).flatten := List.flatten_cons
          rw [hcons, intercalate_append x (h g List.mem_cons_self) hflat, List.map_cons,
            List.map_cons, List.intercalate_cons_cons, ← List.map_cons, hrest, List.append_assoc]
          rfl

/-- The total length of groups that are joined one by one. -/
lemma sum_length_intercalate (gs : List (List (List α))) :
    (gs.map fun g => ([x].intercalate g).length).sum + gs.length =
      (gs.flatten.map List.length).sum + gs.flatten.length + (gs.filter (· = [])).length := by
  induction gs with
  | nil => rfl
  | cons g gs ih =>
      rw [List.map_cons, List.sum_cons, List.length_cons, length_intercalate, List.flatten_cons,
        List.map_append, List.sum_append, List.length_append]
      cases g with
      | nil =>
          rw [List.filter_cons_of_pos (by simp), List.length_cons]
          simp only [List.map_nil, List.sum_nil, List.length_nil]
          omega
      | cons l g =>
          rw [List.filter_cons_of_neg (by simp)]
          simp only [List.map_cons, List.sum_cons, List.length_cons]
          omega

/-- Two or more groups have the length of the whole exactly if none of them is empty. -/
lemma length_joined_eq_iff {gs : List (List (List α))} (h : 2 ≤ gs.length) :
    ([x].intercalate (gs.map ([x].intercalate ·))).length =
        ([x].intercalate gs.flatten).length ↔ ∀ g ∈ gs, g ≠ [] := by
  constructor
  · intro hlen
    rw [length_intercalate, length_intercalate, List.map_map, List.length_map] at hlen
    have hsum := sum_length_intercalate x gs
    have hnone : (gs.filter (· = [])).length = 0 := by
      simp only [Function.comp_def] at hlen
      by_cases hflat : gs.flatten = []
      · rw [hflat] at hlen
        simp only [List.map_nil, List.sum_nil, List.length_nil] at hlen
        omega
      · have hpos := List.length_pos_iff.mpr hflat
        omega
    intro g hg hempty
    have hmem : g ∈ gs.filter (· = []) := by
      rw [List.mem_filter]
      exact ⟨hg, by simpa using hempty⟩
    rw [List.length_eq_zero_iff.mp hnone] at hmem
    cases hmem
  · intro hall
    rw [intercalate_map_intercalate x hall]

end Snova
