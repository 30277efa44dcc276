import Mathlib.Tactic.Common
import Mathlib.Data.List.Basic
import Mathlib.Data.List.Infix
import Mathlib.Algebra.Order.Group.Nat

/-!
# Occurrences of a list in a list

`OccursAt p l i` says that `p` stands in `l` from position `i` on, and `FirstAt p l i` that it does
not stand anywhere before.  A search for a text and what it finds are described by the two, whatever
loop the search is.
-/

namespace Snova

section Occurrence

variable {α : Type*} {p l m : List α} {i j : ℕ}

/-- `p` stands in `l` from position `i` on. -/
def OccursAt (p l : List α) (i : ℕ) : Prop := p <+: l.drop i

/-- `p` stands in `l` from position `i` on, and nowhere before. -/
structure FirstAt (p l : List α) (i : ℕ) : Prop where
  occurs : OccursAt p l i
  first : ∀ j < i, ¬ OccursAt p l j

instance [DecidableEq α] (p l : List α) (i : ℕ) : Decidable (OccursAt p l i) :=
  inferInstanceAs (Decidable (_ <+: _))

lemma occursAt_cons_succ {a : α} : OccursAt p (a :: l) (i + 1) ↔ OccursAt p l i := by
  rw [OccursAt, OccursAt, List.drop_succ_cons]

lemma occursAt_append (before after : List α) :
    OccursAt p (before ++ (p ++ after)) before.length := by
  rw [OccursAt, List.drop_left]
  exact List.prefix_append p after

lemma OccursAt.append (h : OccursAt p l i) (hi : i ≤ l.length) (m : List α) :
    OccursAt p (l ++ m) i := by
  rw [OccursAt, List.drop_append_of_le_length hi]
  exact h.trans (List.prefix_append _ m)

lemma occursAt_drop : OccursAt p (l.drop i) j ↔ OccursAt p l (i + j) := by
  rw [OccursAt, OccursAt, List.drop_drop]

lemma OccursAt.length_le (h : OccursAt p l i) (hp : p ≠ []) : i + p.length ≤ l.length := by
  have hle : p.length ≤ (l.drop i).length := List.IsPrefix.length_le h
  have hpos := List.length_pos_of_ne_nil hp
  rw [List.length_drop] at hle
  omega

/-- The elements of the occurrence. -/
lemma OccursAt.getElem? (h : OccursAt p l i) (hj : j < p.length) : l[i + j]? = p[j]? := by
  obtain ⟨rest, hrest⟩ := h
  rw [← List.getElem?_drop, ← hrest, List.getElem?_append_left hj]

/-- An occurrence that ends in the first part is one in the first part. -/
lemma OccursAt.of_append (h : OccursAt p (l ++ m) i) (hle : i + p.length ≤ l.length) :
    OccursAt p l i := by
  rw [OccursAt, List.drop_append_of_le_length (by omega)] at h
  exact List.prefix_of_prefix_length_le h (List.prefix_append _ m) (by rw [List.length_drop]; omega)

lemma FirstAt.unique (hi : FirstAt p l i) (hj : FirstAt p l j) : i = j := by
  rcases Nat.lt_trichotomy i j with hlt | heq | hgt
  · exact absurd hi.occurs (hj.first i hlt)
  · exact heq
  · exact absurd hj.occurs (hi.first j hgt)

lemma FirstAt.le (h : FirstAt p l i) (hj : OccursAt p l j) : i ≤ j := by
  by_contra hlt
  exact h.first j (Nat.lt_of_not_le hlt) hj

/-- What is appended does not change where a text stands first. -/
lemma FirstAt.append (h : FirstAt p l i) (hp : p ≠ []) (m : List α) : FirstAt p (l ++ m) i := by
  have hlen := h.occurs.length_le hp
  refine ⟨h.occurs.append (by omega) m, fun j hj hocc => ?_⟩
  exact h.first j hj (hocc.of_append (by omega))

/-- What stands first and ends in the first part stands first there. -/
lemma FirstAt.of_append (h : FirstAt p (l ++ m) i) (hle : i + p.length ≤ l.length) :
    FirstAt p l i := by
  refine ⟨h.occurs.of_append hle, fun j hj hocc => ?_⟩
  exact h.first j hj (hocc.append (by omega) m)

/-- A text without the first element of `p` has no occurrence of `p` that begins in it. -/
lemma not_occursAt_of_notMem {a : α} {q : List α} (h : a ∉ l) (hi : i < l.length) :
    ¬ OccursAt (a :: q) (l ++ m) i := by
  intro hocc
  have hget := hocc.getElem? (j := 0) (Nat.succ_pos _)
  rw [Nat.add_zero, List.getElem?_append_left hi, List.getElem?_cons_zero] at hget
  exact h (List.mem_of_getElem? hget)

/-- A text is found first where its first element stands first. -/
lemma firstAt_of_notMem {a : α} {q : List α} (h : a ∉ l) (m : List α) :
    FirstAt (a :: q) (l ++ (a :: q ++ m)) l.length :=
  ⟨occursAt_append l m, fun _ hj => not_occursAt_of_notMem h hj⟩

lemma firstAt_zero_iff : FirstAt p l 0 ↔ p <+: l := by
  constructor
  · exact fun h => by simpa only [OccursAt, List.drop_zero] using h.occurs
  · intro h
    exact ⟨by rwa [OccursAt, List.drop_zero], fun j hj => absurd hj (Nat.not_lt_zero j)⟩

/-! ### Lists with a separator -/

/-- An occurrence that begins at or before an element which is not in it ends before it. -/
lemma OccursAt.end_le {a : α} {k : ℕ} (h : OccursAt p l i) (hk : l[k]? = some a) (ha : a ∉ p)
    (hi : i ≤ k) : i + p.length ≤ k := by
  by_contra hlt
  obtain ⟨j, rfl⟩ := Nat.exists_eq_add_of_le hi
  rw [h.getElem? (by omega)] at hk
  exact ha (List.mem_of_getElem? hk)

lemma occursAt_append_cons {a : α} :
    OccursAt p (l ++ a :: m) (l.length + 1 + i) ↔ OccursAt p m i := by
  rw [← occursAt_drop, ← List.drop_drop, List.drop_left, List.drop_succ_cons, List.drop_zero]

/-- An occurrence of a text without `a` is on one side of `a`. -/
lemma OccursAt.cases_append_cons {a : α} (h : OccursAt p (l ++ a :: m) i) (ha : a ∉ p) :
    OccursAt p l i ∨ ∃ j, i = l.length + 1 + j ∧ OccursAt p m j := by
  rcases Nat.lt_or_ge l.length i with hlt | hle
  · right
    obtain ⟨j, rfl⟩ := Nat.exists_eq_add_of_le (Nat.succ_le_of_lt hlt)
    exact ⟨j, rfl, occursAt_append_cons.mp h⟩
  · left
    have hget : (l ++ a :: m)[l.length]? = some a := by
      rw [List.getElem?_append_right le_rfl, Nat.sub_self, List.getElem?_cons_zero]
    exact h.of_append (h.end_le hget ha hle)

lemma OccursAt.isInfix (h : OccursAt p l i) : p <:+: l :=
  (List.IsPrefix.isInfix h).trans (List.drop_suffix i l).isInfix

lemma infix_append_cons_iff {a : α} (ha : a ∉ p) : p <:+: l ++ a :: m ↔ p <:+: l ∨ p <:+: m := by
  constructor
  · rintro ⟨before, after, heq⟩
    have hocc : OccursAt p (l ++ a :: m) before.length := by
      rw [← heq, List.append_assoc]
      exact occursAt_append before after
    rcases hocc.cases_append_cons ha with hl | ⟨j, -, hm⟩
    · exact Or.inl hl.isInfix
    · exact Or.inr hm.isInfix
  · rintro (hl | hm)
    · exact List.infix_append_of_infix_left hl
    · exact List.infix_append_of_infix_right (List.infix_cons_iff.mpr (Or.inr hm))

/-- A text without `a` is found first behind `a` if it is not in front of `a`. -/
lemma firstAt_append_cons_iff {a : α} (ha : a ∉ p) :
    FirstAt p (l ++ a :: m) (l.length + 1 + i) ↔ FirstAt p m i ∧ ¬ p <:+: l := by
  constructor
  · intro h
    refine ⟨⟨occursAt_append_cons.mp h.occurs, fun j hj hocc => ?_⟩, ?_⟩
    · exact h.first (l.length + 1 + j) (by omega) (occursAt_append_cons.mpr hocc)
    · rintro ⟨before, after, rfl⟩
      refine h.first before.length ?_ ?_
      · simp only [List.length_append]
        omega
      · rw [List.append_assoc, List.append_assoc]
        exact occursAt_append before _
  · rintro ⟨hm, hl⟩
    refine ⟨occursAt_append_cons.mpr hm.occurs, fun j hj hocc => ?_⟩
    rcases hocc.cases_append_cons ha with hocc' | ⟨k, rfl, hocc'⟩
    · exact hl hocc'.isInfix
    · exact hm.first k (by omega) hocc'

end Occurrence

end Snova
