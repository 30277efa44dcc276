import Mathlib.Order.Lattice
import Mathlib.Data.List.Basic
import Mathlib.Tactic.Common

/-!
# Maps with ordered keys

A `btree_map` as the list of its entries, with growing keys.  An iterator is a position: the first
entry is at 0, and the end is behind the last one.  `upperBound k` is the first entry with a key
above `k`, so the entry before it, if there is one, is the last with a key up to `k`
(`getElem?_upperBound_sub_one`).
-/

namespace Snova

variable {κ ν : Type} [LinearOrder κ]

/-- A map with ordered keys. -/
structure OrderedMap (κ ν : Type) [LinearOrder κ] where
  entries : List (κ × ν)
  sorted : entries.Pairwise fun a b => a.1 < b.1

namespace OrderedMap

/-- The map without entries. -/
def empty : OrderedMap κ ν := ⟨[], .nil⟩

/-! ## Insertion -/

/-- An entry is put before the first one with a larger key. -/
def insertEntry (k : κ) (v : ν) : List (κ × ν) → List (κ × ν)
  | [] => [(k, v)]
  | e :: es => if k < e.1 then (k, v) :: e :: es else e :: insertEntry k v es

lemma mem_insertEntry {k : κ} {v : ν} {e : κ × ν} {es : List (κ × ν)} :
    e ∈ insertEntry k v es ↔ e = (k, v) ∨ e ∈ es := by
  induction es with
  | nil => rw [insertEntry, List.mem_singleton, or_iff_left List.not_mem_nil]
  | cons e' es ih =>
      rw [insertEntry]
      split
      · exact List.mem_cons
      · rw [List.mem_cons, ih, List.mem_cons]
        exact or_left_comm

lemma sorted_insertEntry {k : κ} {es : List (κ × ν)} (v : ν)
    (h : es.Pairwise fun a b => a.1 < b.1) (hk : ¬ ∃ e ∈ es, e.1 = k) :
    (insertEntry k v es).Pairwise fun a b => a.1 < b.1 := by
  induction es with
  | nil => exact List.pairwise_singleton _ _
  | cons e es ih =>
      obtain ⟨hfirst, hrest⟩ := List.pairwise_cons.mp h
      rw [insertEntry]
      split
      · next hlt =>
          refine List.pairwise_cons.mpr ⟨fun e' he' => ?_, h⟩
          obtain rfl | he' := List.mem_cons.mp he'
          · exact hlt
          · exact hlt.trans (hfirst e' he')
      · next hnot =>
          have hne : e.1 ≠ k := fun heq => hk ⟨e, List.mem_cons_self, heq⟩
          have hrest' := ih hrest fun ⟨e', he', heq⟩ => hk ⟨e', List.mem_cons_of_mem _ he', heq⟩
          refine List.pairwise_cons.mpr ⟨fun e' he' => ?_, hrest'⟩
          obtain rfl | he' := mem_insertEntry.mp he'
          · exact lt_of_le_of_ne (not_lt.mp hnot) hne
          · exact hfirst e' he'

/-- `emplace`: the map, and whether the entry is new.  An entry that is there already stays. -/
def emplace (m : OrderedMap κ ν) (k : κ) (v : ν) : OrderedMap κ ν × Bool :=
  if h : ∃ e ∈ m.entries, e.1 = k then (m, false)
  else (⟨insertEntry k v m.entries, sorted_insertEntry v m.sorted h⟩, true)

lemma mem_emplace {m m' : OrderedMap κ ν} {k : κ} {v : ν} {e : κ × ν}
    (h : m.emplace k v = (m', true)) : e ∈ m'.entries ↔ e = (k, v) ∨ e ∈ m.entries := by
  unfold emplace at h
  split at h
  · cases (Prod.mk.inj h).2
  · obtain ⟨rfl, -⟩ := Prod.mk.inj h
    exact mem_insertEntry

/-! ## Search -/

/-- `upper_bound`: the position of the first entry with a larger key. -/
def upperBound (m : OrderedMap κ ν) (k : κ) : ℕ := m.entries.findIdx fun e => k < e.1

/-- The end is found if no key is larger. -/
lemma upperBound_eq_length_iff (m : OrderedMap κ ν) (k : κ) :
    m.upperBound k = m.entries.length ↔ ∀ e ∈ m.entries, e.1 ≤ k := by
  rw [upperBound, List.findIdx_eq_length]
  refine forall₂_congr fun e _ => ?_
  rw [decide_eq_false_iff_not, not_lt]

/-- The entry before `upper_bound` is the last one whose key is not larger. -/
lemma getElem?_upperBound_sub_one {m : OrderedMap κ ν} {k : κ} {e : κ × ν} (he : e ∈ m.entries)
    (hle : e.1 ≤ k) (hlast : ∀ e' ∈ m.entries, e'.1 ≤ k → e'.1 ≤ e.1) :
    0 < m.upperBound k ∧ m.entries[m.upperBound k - 1]? = some e := by
  obtain ⟨before, after, hsplit⟩ := List.append_of_mem he
  have hsorted := m.sorted
  rw [hsplit, List.pairwise_append, List.pairwise_cons] at hsorted
  obtain ⟨-, ⟨hafter, -⟩, hbefore⟩ := hsorted
  have hskip : before.findIdx (fun x => k < x.1) = before.length := by
    rw [List.findIdx_eq_length]
    intro x hx
    have hxe := hbefore x hx e List.mem_cons_self
    exact decide_eq_false (not_lt.mpr (hxe.le.trans hle))
  have hrest : after.findIdx (fun x => k < x.1) = 0 := by
    cases after with
    | nil => rfl
    | cons x after =>
        have hmem : x ∈ m.entries := by
          rw [hsplit]
          simp
        have hlarger : k < x.1 := by
          by_contra hnot
          exact absurd (hlast x hmem (not_lt.mp hnot))
            (not_le.mpr (hafter x List.mem_cons_self))
        rw [List.findIdx_cons, decide_eq_true hlarger]
        rfl
  have hidx : m.upperBound k = before.length + 1 := by
    rw [upperBound, hsplit, List.findIdx_append, hskip, if_neg (Nat.lt_irrefl _), List.findIdx_cons,
      decide_eq_false (not_lt.mpr hle), hrest]
    exact Nat.add_comm 1 before.length
  rw [hidx, hsplit]
  exact ⟨Nat.succ_pos _, by simp⟩

/-- Behind the beginning there is an entry before `upper_bound`. -/
lemma exists_getElem?_upperBound_sub_one {m : OrderedMap κ ν} {k : κ} (h : 0 < m.upperBound k) :
    ∃ e ∈ m.entries, m.entries[m.upperBound k - 1]? = some e := by
  have hlt : m.upperBound k - 1 < m.entries.length := by
    have hle : m.upperBound k ≤ m.entries.length := List.findIdx_le_length
    omega
  exact ⟨m.entries[m.upperBound k - 1], List.getElem_mem hlt, List.getElem?_eq_getElem hlt⟩

end OrderedMap

end Snova
