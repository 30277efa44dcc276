import Mathlib.Algebra.BigOperators.Fin
import Mathlib.Tactic.Common

/-!
# Tallies

The total weight of the entries of a list that have a property (`tally`).  A counter that is kept up
to date agrees with such a tally: an entry that joins the list adds its weight if it has the
property, and a change of the property that concerns no entry changes nothing.  If every entry
belongs to one class, the tallies of the classes add up (`sum_tally_class`).
-/

namespace Snova

variable {α ι : Type*} {w : α → ℕ} {p q : α → Prop} [DecidablePred p] [DecidablePred q]

/-- The total weight of the entries with the property. -/
def tally (w : α → ℕ) (p : α → Prop) [DecidablePred p] (l : List α) : ℕ :=
  ((l.filter p).map w).sum

@[simp] lemma tally_nil (w : α → ℕ) (p : α → Prop) [DecidablePred p] : tally w p [] = 0 := rfl

lemma tally_cons_of_pos {a : α} (h : p a) (l : List α) :
    tally w p (a :: l) = w a + tally w p l := by
  rw [tally, List.filter_cons_of_pos (by simpa using h), List.map_cons, List.sum_cons]
  rfl

lemma tally_cons_of_neg {a : α} (h : ¬ p a) (l : List α) : tally w p (a :: l) = tally w p l := by
  rw [tally, List.filter_cons_of_neg (by simpa using h)]
  rfl

/-- Properties that agree on the entries have the same tally. -/
lemma tally_congr {l : List α} (h : ∀ a ∈ l, p a ↔ q a) : tally w p l = tally w q l := by
  have hfilter : l.filter (fun a => p a) = l.filter (fun a => q a) :=
    List.filter_congr fun a ha => decide_eq_decide.mpr (h a ha)
  rw [tally, hfilter]
  rfl

lemma tally_eq_zero {l : List α} (h : ∀ a ∈ l, ¬ p a) : tally w p l = 0 := by
  induction l with
  | nil => rfl
  | cons a l ih =>
      rw [tally_cons_of_neg (h a List.mem_cons_self),
        ih fun b hb => h b (List.mem_cons_of_mem a hb)]

lemma tally_le {l : List α} (h : ∀ a ∈ l, p a → q a) : tally w p l ≤ tally w q l := by
  induction l with
  | nil => exact Nat.le_refl 0
  | cons a l ih =>
      have hrest := ih fun b hb => h b (List.mem_cons_of_mem a hb)
      by_cases hp : p a
      · rw [tally_cons_of_pos hp, tally_cons_of_pos (h a List.mem_cons_self hp)]
        omega
      · rw [tally_cons_of_neg hp]
        by_cases hq : q a
        · rw [tally_cons_of_pos hq]
          omega
        · rwa [tally_cons_of_neg hq]

/-- **Classes add up.** -/
lemma sum_tally_class [Fintype ι] [DecidableEq ι] (class_ : α → ι) (l : List α) :
    ∑ i, tally w (fun a => p a ∧ class_ a = i) l = tally w p l := by
  induction l with
  | nil => exact Finset.sum_const_zero
  | cons a l ih =>
      by_cases hp : p a
      · have hsplit : ∀ i, tally w (fun a => p a ∧ class_ a = i) (a :: l)
            = (if class_ a = i then w a else 0) + tally w (fun a => p a ∧ class_ a = i) l := by
          intro i
          by_cases hi : class_ a = i
          · rw [tally_cons_of_pos ⟨hp, hi⟩, if_pos hi]
          · rw [tally_cons_of_neg fun h => hi h.2, if_neg hi, Nat.zero_add]
        rw [Finset.sum_congr rfl fun i _ => hsplit i, Finset.sum_add_distrib, ih,
          Finset.sum_ite_eq, if_pos (Finset.mem_univ _), tally_cons_of_pos hp]
      · rw [tally_cons_of_neg hp, ← ih]
        exact Finset.sum_congr rfl fun i _ => tally_cons_of_neg (fun h => hp h.1) l

end Snova
