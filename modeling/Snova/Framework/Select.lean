import Mathlib.Algebra.Order.Group.Nat
import Mathlib.Data.List.Basic
import Mathlib.Tactic.Common

/-!
# Selecting a least entry

The first of the least entries of a list with gaps (`IsFirstMin`), and how it changes when an entry
is appended.  A loop that goes through the list once and keeps the best entry so far follows these
rules.
-/

namespace Snova

section Select

variable {α κ : Type*} [LinearOrder κ] {key : α → κ} {l : List (Option α)} {i j : ℕ} {a b : α}

/-- The entry `a` at position `i` has the least key of all entries, and no entry before it has the
same one. -/
structure IsFirstMin (key : α → κ) (l : List (Option α)) (i : ℕ) (a : α) : Prop where
  getElem? : l[i]? = some (some a)
  le : ∀ (j : ℕ) (b : α), l[j]? = some (some b) → key a ≤ key b
  first : ∀ (j : ℕ) (b : α), l[j]? = some (some b) → key b = key a → i ≤ j

lemma IsFirstMin.lt_length (h : IsFirstMin key l i a) : i < l.length :=
  (List.getElem?_eq_some_iff.mp h.getElem?).1

lemma IsFirstMin.unique (h : IsFirstMin key l i a) (h' : IsFirstMin key l j b) : i = j := by
  have hkey : key b = key a := (h'.le i a h.getElem?).antisymm (h.le j b h'.getElem?)
  exact (h.first j b h'.getElem? hkey).antisymm (h'.first i a h.getElem? hkey.symm)

/-- An entry of a list with one more at its end. -/
lemma getElem?_concat_eq_some {c : Option α} (h : (l ++ [c])[j]? = some (some b)) :
    l[j]? = some (some b) ∨ j = l.length ∧ c = some b := by
  by_cases hj : j < l.length
  · rw [List.getElem?_append_left hj] at h
    exact .inl h
  · rw [List.getElem?_append_right (Nat.le_of_not_lt hj), List.getElem?_singleton] at h
    split at h
    · next hzero =>
        refine .inr ⟨?_, Option.some.inj h⟩
        omega
    · cases h

/-- Gaps do not count. -/
lemma IsFirstMin.concat_none (h : IsFirstMin key l i a) : IsFirstMin key (l ++ [none]) i a := by
  refine ⟨?_, fun j b hb => ?_, fun j b hb => ?_⟩
  · rw [List.getElem?_append_left h.lt_length, h.getElem?]
  · obtain hb | ⟨-, hnone⟩ := getElem?_concat_eq_some hb
    · exact h.le j b hb
    · cases hnone
  · obtain hb | ⟨-, hnone⟩ := getElem?_concat_eq_some hb
    · exact h.first j b hb
    · cases hnone

/-- An entry that is not better leaves the selected one. -/
lemma IsFirstMin.concat_of_le (h : IsFirstMin key l i a) (hle : key a ≤ key b) :
    IsFirstMin key (l ++ [some b]) i a := by
  refine ⟨?_, fun j c hc => ?_, fun j c hc hkey => ?_⟩
  · rw [List.getElem?_append_left h.lt_length, h.getElem?]
  · obtain hc | ⟨-, heq⟩ := getElem?_concat_eq_some hc
    · exact h.le j c hc
    · rwa [← Option.some.inj heq]
  · obtain hc | ⟨rfl, -⟩ := getElem?_concat_eq_some hc
    · exact h.first j c hc hkey
    · exact h.lt_length.le

/-- A better entry takes its place. -/
lemma IsFirstMin.concat_of_lt (h : IsFirstMin key l i a) (hlt : key b < key a) :
    IsFirstMin key (l ++ [some b]) l.length b := by
  refine ⟨?_, fun j c hc => ?_, fun j c hc hkey => ?_⟩
  · rw [List.getElem?_concat_length]
  · obtain hc | ⟨-, heq⟩ := getElem?_concat_eq_some hc
    · exact hlt.le.trans (h.le j c hc)
    · rw [Option.some.inj heq]
  · obtain hc | ⟨rfl, -⟩ := getElem?_concat_eq_some hc
    · exact absurd (hkey ▸ h.le j c hc) hlt.not_ge
    · exact Nat.le_refl _

/-- The first entry of all is selected. -/
lemma isFirstMin_concat_first (key : α → κ) (h : ∀ c ∈ l, c = none) (b : α) :
    IsFirstMin key (l ++ [some b]) l.length b := by
  have hnone : ∀ (j : ℕ) (c : α), l[j]? ≠ some (some c) := fun j c hc => by
    cases h _ (List.mem_of_getElem? hc)
  refine ⟨?_, fun j c hc => ?_, fun j c hc hkey => ?_⟩
  · rw [List.getElem?_concat_length]
  · obtain hc | ⟨-, heq⟩ := getElem?_concat_eq_some hc
    · exact absurd hc (hnone j c)
    · rw [Option.some.inj heq]
  · obtain hc | ⟨rfl, -⟩ := getElem?_concat_eq_some hc
    · exact absurd hc (hnone j c)
    · exact Nat.le_refl _

end Select

end Snova
