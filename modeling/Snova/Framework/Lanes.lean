import Mathlib.Data.List.Nodup
import Mathlib.Data.List.Range
import Mathlib.Logic.Function.Basic
import Mathlib.Logic.Relation

/-!
# Items that travel in lanes

A producer issues items, numbered in the order it issues them.  An item is held by somebody until
some *lane* accepts it or its holder gives it up; a lane is first-in first-out, and may lose all
it carries; what leaves a lane has *arrived*.

Whatever happens, no item is in two places and none arrives twice (`Sound`).  Across lanes there
is no order at all.  They arrive in the order they were issued if a lane accepts an item only when
everything issued before has arrived or is ahead of it in that lane: then at most one lane carries
anything, and it carries what comes next (`InSequence`).
-/

namespace Snova

/-- Items with values in `β`, held by members of `π` or carried in lanes of `κ`. -/
structure Lanes (π κ β : Type*) where
  issued : List β
  held : π → Option (ℕ × β)
  lane : κ → List (ℕ × β)
  -- everything a lane has accepted
  carried : κ → List (ℕ × β)
  -- what has arrived, and in which lane
  arrived : List (κ × ℕ × β)

namespace Lanes

variable {π κ β : Type*} {L L' : Lanes π κ β}

/-- Nothing has been issued. -/
def empty : Lanes π κ β := ⟨[], fun _ => none, fun _ => [], fun _ => [], []⟩

/-- The items that have arrived. -/
def items (L : Lanes π κ β) : List (ℕ × β) := L.arrived.map Prod.snd

/-! ## No item twice -/

/-- Where an item is. -/
inductive Place (π κ : Type*)
  | held (p : π)
  | lane (c : κ)
  | arrived

/-- Every item is one of those issued, and in one place. -/
structure SoundAt (L : Lanes π κ β) (place : ℕ → Place π κ) : Prop where
  held : ∀ p x, L.held p = some x → L.issued[x.1]? = some x.2 ∧ place x.1 = .held p
  lane : ∀ c x, x ∈ L.lane c → L.issued[x.1]? = some x.2 ∧ place x.1 = .lane c
  arrived : ∀ x, x ∈ L.items → L.issued[x.1]? = some x.2 ∧ place x.1 = .arrived
  lane_nodup : ∀ c, ((L.lane c).map Prod.fst).Nodup
  arrived_nodup : (L.items.map Prod.fst).Nodup

def Sound (L : Lanes π κ β) : Prop := ∃ place, L.SoundAt place

lemma sound_empty : (empty : Lanes π κ β).Sound := by
  refine ⟨fun _ => .arrived, ?_, ?_, ?_, ?_, ?_⟩
  · intro p x hx; cases hx
  · intro c x hx; cases hx
  · intro x hx; cases hx
  · intro c; exact List.nodup_nil
  · exact List.nodup_nil

/-! ## Items in sequence -/

/-- What has arrived are the first items, and every lane that carries something carries the next
ones. -/
structure InSequence (L : Lanes π κ β) : Prop where
  arrived : L.items.map Prod.fst = List.range L.items.length
  lane : ∀ c, (L.lane c).map Prod.fst = List.range' L.items.length (L.lane c).length

lemma inSequence_empty : (empty : Lanes π κ β).InSequence := ⟨rfl, fun _ => rfl⟩

/-- Everything issued before the item has arrived or is ahead of it. -/
def Clear (L : Lanes π κ β) (c : κ) (n : ℕ) : Prop :=
  ∀ m < n, m ∈ L.items.map Prod.fst ∨ m ∈ (L.lane c).map Prod.fst

/-- An item that is accepted when the way is clear is the next one of its lane. -/
lemma InSequence.next (h : L.InSequence) (hsound : L.Sound) {p : π} {x : ℕ × β}
    (hheld : L.held p = some x) {c : κ} (hclear : L.Clear c x.1) :
    x.1 = L.items.length + (L.lane c).length := by
  obtain ⟨place, hsound⟩ := hsound
  have hplace := (hsound.held p x hheld).2
  have hlow : ¬ x.1 < L.items.length := by
    intro hlt
    have hmem : x.1 ∈ L.items.map Prod.fst := by rw [h.arrived]; exact List.mem_range.mpr hlt
    obtain ⟨y, hy, hxy⟩ := List.mem_map.mp hmem
    have harrived := (hsound.arrived y hy).2
    rw [hxy, hplace] at harrived
    cases harrived
  have hmiddle : ¬ x.1 < L.items.length + (L.lane c).length := by
    intro hlt
    have hmem : x.1 ∈ (L.lane c).map Prod.fst := by
      rw [h.lane c]
      exact List.mem_range'_1.mpr ⟨by omega, hlt⟩
    obtain ⟨y, hy, hxy⟩ := List.mem_map.mp hmem
    have hlane := (hsound.lane c y hy).2
    rw [hxy, hplace] at hlane
    cases hlane
  have hhigh : ¬ L.items.length + (L.lane c).length < x.1 := by
    intro hlt
    rcases hclear _ hlt with hmem | hmem
    · rw [h.arrived] at hmem
      have := List.mem_range.mp hmem
      omega
    · rw [h.lane c] at hmem
      have := List.mem_range'_1.mp hmem
      omega
  omega

/-- Items in sequence arrive as they were issued. -/
lemma InSequence.arrived_prefix_issued (h : L.InSequence) (hsound : L.Sound) :
    L.items.map Prod.snd <+: L.issued := by
  obtain ⟨place, hsound⟩ := hsound
  rw [List.prefix_iff_getElem?]
  intro i hi
  rw [List.length_map] at hi
  have hnumber : (L.items[i]).1 = i := by
    have hmap : (L.items.map Prod.fst)[i]? = (List.range L.items.length)[i]? := by
      rw [h.arrived]
    rw [List.getElem?_map, List.getElem?_eq_getElem hi, List.getElem?_range hi] at hmap
    exact Option.some.inj hmap
  have hvalid := (hsound.arrived _ (List.getElem_mem hi)).1
  rw [hnumber] at hvalid
  rw [hvalid, List.getElem_map]

/-! ## What can happen -/

section Steps

variable [DecidableEq π] [DecidableEq κ]

def issue (L : Lanes π κ β) (p : π) (b : β) : Lanes π κ β :=
  { L with
    issued := L.issued ++ [b]
    held := Function.update L.held p (some (L.issued.length, b)) }

def giveUp (L : Lanes π κ β) (p : π) : Lanes π κ β :=
  { L with held := Function.update L.held p none }

def accept (L : Lanes π κ β) (p : π) (c : κ) (x : ℕ × β) : Lanes π κ β :=
  { L with
    held := Function.update L.held p none
    lane := Function.update L.lane c (L.lane c ++ [x])
    carried := Function.update L.carried c (L.carried c ++ [x]) }

def arrive (L : Lanes π κ β) (c : κ) (x : ℕ × β) (rest : List (ℕ × β)) : Lanes π κ β :=
  { L with
    lane := Function.update L.lane c rest
    arrived := L.arrived ++ [(c, x)] }

def lose (L : Lanes π κ β) (c : κ) : Lanes π κ β :=
  { L with lane := Function.update L.lane c [] }

/-- Everything but the acceptance of an item. -/
inductive Quiet : Lanes π κ β → Lanes π κ β → Prop
  | issue (L : Lanes π κ β) (p : π) (b : β) : Quiet L (L.issue p b)
  | giveUp (L : Lanes π κ β) (p : π) : Quiet L (L.giveUp p)
  | arrive (L : Lanes π κ β) (c : κ) (x : ℕ × β) (rest : List (ℕ × β))
      (front : L.lane c = x :: rest) : Quiet L (L.arrive c x rest)
  | lose (L : Lanes π κ β) (c : κ) : Quiet L (L.lose c)

omit [DecidableEq π] in
lemma arrive_items (L : Lanes π κ β) (c : κ) (x : ℕ × β) (rest : List (ℕ × β)) :
    (L.arrive c x rest).items = L.items ++ [x] := by
  simp [items, arrive]

/-! ## No step puts an item in two places -/

lemma getElem?_append_of_eq_some {issued : List β} {n : ℕ} {b : β} (h : issued[n]? = some b)
    (more : List β) : (issued ++ more)[n]? = some b := by
  rw [List.getElem?_append_left (List.getElem?_eq_some_iff.mp h).1]
  exact h

lemma ne_length_of_eq_some {issued : List β} {n : ℕ} {b : β} (h : issued[n]? = some b) :
    n ≠ issued.length :=
  (List.getElem?_eq_some_iff.mp h).1.ne

omit [DecidableEq κ] in
lemma Sound.issue (h : L.Sound) (p : π) (b : β) : (L.issue p b).Sound := by
  obtain ⟨place, h⟩ := h
  refine ⟨Function.update place L.issued.length (.held p), ?_, ?_, ?_, h.lane_nodup,
    h.arrived_nodup⟩
  · intro q x hx
    by_cases hq : q = p
    · subst hq
      simp only [Lanes.issue, Function.update_self] at hx
      obtain rfl := Option.some.inj hx
      exact ⟨by simp [Lanes.issue], Function.update_self _ _ _⟩
    · simp only [Lanes.issue, Function.update_of_ne hq] at hx
      obtain ⟨hvalid, hplace⟩ := h.held q x hx
      rw [Function.update_of_ne (ne_length_of_eq_some hvalid)]
      exact ⟨getElem?_append_of_eq_some hvalid _, hplace⟩
  · intro c x hx
    obtain ⟨hvalid, hplace⟩ := h.lane c x hx
    rw [Function.update_of_ne (ne_length_of_eq_some hvalid)]
    exact ⟨getElem?_append_of_eq_some hvalid _, hplace⟩
  · intro x hx
    obtain ⟨hvalid, hplace⟩ := h.arrived x hx
    rw [Function.update_of_ne (ne_length_of_eq_some hvalid)]
    exact ⟨getElem?_append_of_eq_some hvalid _, hplace⟩

omit [DecidableEq κ] in
lemma Sound.giveUp (h : L.Sound) (p : π) : (L.giveUp p).Sound := by
  obtain ⟨place, h⟩ := h
  refine ⟨place, ?_, h.lane, h.arrived, h.lane_nodup, h.arrived_nodup⟩
  intro q x hx
  by_cases hq : q = p
  · subst hq
    simp only [Lanes.giveUp, Function.update_self] at hx
    cases hx
  · simp only [Lanes.giveUp, Function.update_of_ne hq] at hx
    exact h.held q x hx

/-- The item that has just moved is the only one at its new place with its number. -/
lemma Sound.accept (h : L.Sound) {p : π} {x : ℕ × β} (hheld : L.held p = some x) (c : κ) :
    (L.accept p c x).Sound := by
  obtain ⟨place, h⟩ := h
  obtain ⟨hvalid, hplace⟩ := h.held p x hheld
  have hother : ∀ {n : ℕ} {at' : Place π κ}, place n = at' → at' ≠ .held p → n ≠ x.1 := by
    rintro n _ rfl hne rfl
    exact hne hplace
  refine ⟨Function.update place x.1 (.lane c), ?_, ?_, ?_, ?_, h.arrived_nodup⟩
  · intro q y hy
    by_cases hq : q = p
    · subst hq
      simp only [Lanes.accept, Function.update_self] at hy
      cases hy
    · simp only [Lanes.accept, Function.update_of_ne hq] at hy
      obtain ⟨hvalid', hplace'⟩ := h.held q y hy
      refine ⟨hvalid', ?_⟩
      rw [Function.update_of_ne (hother hplace' fun he => hq (Place.held.inj he))]
      exact hplace'
  · intro d y hy
    have hold : y ∈ L.lane d → L.issued[y.1]? = some y.2 ∧
        Function.update place x.1 (.lane c) y.1 = .lane d := by
      intro hmem
      obtain ⟨hvalid', hplace'⟩ := h.lane d y hmem
      rw [Function.update_of_ne (hother hplace' nofun)]
      exact ⟨hvalid', hplace'⟩
    by_cases hd : d = c
    · subst hd
      simp only [Lanes.accept, Function.update_self] at hy
      rcases List.mem_append.mp hy with hy | hy
      · exact hold hy
      · obtain rfl := List.mem_singleton.mp hy
        exact ⟨hvalid, Function.update_self _ _ _⟩
    · simp only [Lanes.accept, Function.update_of_ne hd] at hy
      exact hold hy
  · intro y hy
    obtain ⟨hvalid', hplace'⟩ := h.arrived y hy
    rw [Function.update_of_ne (hother hplace' nofun)]
    exact ⟨hvalid', hplace'⟩
  · intro d
    by_cases hd : d = c
    · subst hd
      simp only [Lanes.accept, Function.update_self]
      rw [List.map_append, List.nodup_append]
      refine ⟨h.lane_nodup d, List.nodup_singleton _, ?_⟩
      intro n hn m hm
      obtain ⟨y, hy, rfl⟩ := List.mem_map.mp hn
      obtain rfl := List.mem_singleton.mp hm
      exact hother (h.lane d y hy).2 nofun
    · simp only [Lanes.accept, Function.update_of_ne hd]
      exact h.lane_nodup d

omit [DecidableEq π] in
lemma Sound.arrive (h : L.Sound) {c : κ} {x : ℕ × β} {rest : List (ℕ × β)}
    (hfront : L.lane c = x :: rest) : (L.arrive c x rest).Sound := by
  obtain ⟨place, h⟩ := h
  obtain ⟨hvalid, hplace⟩ := h.lane c x (by rw [hfront]; exact List.mem_cons_self)
  have hother : ∀ {n : ℕ} {at' : Place π κ}, place n = at' → at' ≠ .lane c → n ≠ x.1 := by
    rintro n _ rfl hne rfl
    exact hne hplace
  have hrest : x.1 ∉ rest.map Prod.fst ∧ (rest.map Prod.fst).Nodup := by
    have hnodup := h.lane_nodup c
    rw [hfront, List.map_cons] at hnodup
    exact List.nodup_cons.mp hnodup
  refine ⟨Function.update place x.1 .arrived, ?_, ?_, ?_, ?_, ?_⟩
  · intro q y hy
    obtain ⟨hvalid', hplace'⟩ := h.held q y hy
    rw [Function.update_of_ne (hother hplace' nofun)]
    exact ⟨hvalid', hplace'⟩
  · intro d y hy
    by_cases hd : d = c
    · subst hd
      simp only [Lanes.arrive, Function.update_self] at hy
      obtain ⟨hvalid', hplace'⟩ := h.lane d y (by rw [hfront]; exact List.mem_cons_of_mem x hy)
      have hne : y.1 ≠ x.1 := fun he => hrest.1 (he ▸ List.mem_map_of_mem hy)
      rw [Function.update_of_ne hne]
      exact ⟨hvalid', hplace'⟩
    · simp only [Lanes.arrive, Function.update_of_ne hd] at hy
      obtain ⟨hvalid', hplace'⟩ := h.lane d y hy
      rw [Function.update_of_ne (hother hplace' fun he => hd (Place.lane.inj he))]
      exact ⟨hvalid', hplace'⟩
  · intro y hy
    rw [arrive_items] at hy
    rcases List.mem_append.mp hy with hy | hy
    · obtain ⟨hvalid', hplace'⟩ := h.arrived y hy
      rw [Function.update_of_ne (hother hplace' nofun)]
      exact ⟨hvalid', hplace'⟩
    · obtain rfl := List.mem_singleton.mp hy
      exact ⟨hvalid, Function.update_self _ _ _⟩
  · intro d
    by_cases hd : d = c
    · subst hd
      simp only [Lanes.arrive, Function.update_self]
      exact hrest.2
    · simp only [Lanes.arrive, Function.update_of_ne hd]
      exact h.lane_nodup d
  · rw [arrive_items, List.map_append, List.nodup_append]
    refine ⟨h.arrived_nodup, List.nodup_singleton _, ?_⟩
    intro n hn m hm
    obtain ⟨y, hy, rfl⟩ := List.mem_map.mp hn
    obtain rfl := List.mem_singleton.mp hm
    exact hother (h.arrived y hy).2 nofun

omit [DecidableEq π] in
lemma Sound.lose (h : L.Sound) (c : κ) : (L.lose c).Sound := by
  obtain ⟨place, h⟩ := h
  refine ⟨place, h.held, ?_, h.arrived, ?_, h.arrived_nodup⟩
  · intro d x hx
    by_cases hd : d = c
    · subst hd
      simp only [Lanes.lose, Function.update_self] at hx
      cases hx
    · simp only [Lanes.lose, Function.update_of_ne hd] at hx
      exact h.lane d x hx
  · intro d
    by_cases hd : d = c
    · subst hd
      simp only [Lanes.lose, Function.update_self]
      exact List.nodup_nil
    · simp only [Lanes.lose, Function.update_of_ne hd]
      exact h.lane_nodup d

lemma Sound.quiet (h : L.Sound) (hstep : Quiet L L') : L'.Sound := by
  cases hstep with
  | issue p b => exact h.issue p b
  | giveUp p => exact h.giveUp p
  | arrive c x rest front => exact h.arrive front
  | lose c => exact h.lose c

lemma Sound.quiets (h : L.Sound) (hrun : Relation.ReflTransGen Quiet L L') : L'.Sound := by
  induction hrun with
  | refl => exact h
  | tail _ hstep ih => exact ih.quiet hstep

/-! ## The order of a lane -/

/-- What has arrived in a lane, and what is still in it, are among the items it accepted, in the
same order. -/
def Ordered (L : Lanes π κ β) : Prop :=
  ∀ c, ((L.arrived.filter fun y => y.1 = c).map Prod.snd ++ L.lane c).Sublist (L.carried c)

omit [DecidableEq π] in
lemma ordered_empty : (empty : Lanes π κ β).Ordered := fun _ => .slnil

lemma Ordered.accept (h : L.Ordered) (p : π) (c : κ) (x : ℕ × β) : (L.accept p c x).Ordered := by
  intro d
  by_cases hd : d = c
  · subst hd
    simp only [Lanes.accept, Function.update_self]
    rw [← List.append_assoc]
    exact (h d).append (List.Sublist.refl _)
  · simp only [Lanes.accept, Function.update_of_ne hd]
    exact h d

lemma Ordered.quiet (h : L.Ordered) (hstep : Quiet L L') : L'.Ordered := by
  cases hstep with
  | issue p b => exact h
  | giveUp p => exact h
  | arrive c x rest front =>
      intro d
      have hd := h d
      by_cases hdc : d = c
      · subst hdc
        rw [front] at hd
        simpa [Lanes.arrive] using hd
      · simpa [Lanes.arrive, Function.update_of_ne hdc, Ne.symm hdc] using hd
  | lose c =>
      intro d
      by_cases hd : d = c
      · subst hd
        simp only [Lanes.lose, Function.update_self]
        exact ((List.Sublist.refl _).append (List.nil_sublist _)).trans (h d)
      · simp only [Lanes.lose, Function.update_of_ne hd]
        exact h d

lemma Ordered.quiets (h : L.Ordered) (hrun : Relation.ReflTransGen Quiet L L') : L'.Ordered := by
  induction hrun with
  | refl => exact h
  | tail _ hstep ih => exact ih.quiet hstep

/-! ## Steps that keep the sequence -/

lemma InSequence.accept (h : L.InSequence) (hsound : L.Sound) {p : π} {x : ℕ × β}
    (hheld : L.held p = some x) {c : κ} (hclear : L.Clear c x.1) :
    (L.accept p c x).InSequence := by
  refine ⟨h.arrived, fun d => ?_⟩
  by_cases hd : d = c
  · subst hd
    have hitems : (L.accept p d x).items = L.items := rfl
    rw [hitems]
    simp only [Lanes.accept, Function.update_self]
    rw [List.map_append, h.lane d, List.length_append, List.length_singleton,
      List.range'_1_concat, ← h.next hsound hheld hclear]
    rfl
  · simp only [Lanes.accept, Function.update_of_ne hd]
    exact h.lane d

omit [DecidableEq π] in
/-- Only one lane carries anything, or two would carry the same number. -/
lemma InSequence.arrive (h : L.InSequence) (hsound : L.Sound) {c : κ} {x : ℕ × β}
    {rest : List (ℕ × β)} (hfront : L.lane c = x :: rest) : (L.arrive c x rest).InSequence := by
  obtain ⟨place, hsound⟩ := hsound
  have hlane := h.lane c
  rw [hfront, List.map_cons, List.length_cons, List.range'_succ, List.cons.injEq] at hlane
  obtain ⟨hx, hrest⟩ := hlane
  refine ⟨?_, fun d => ?_⟩
  · rw [arrive_items, List.map_append, h.arrived, List.length_append, List.length_singleton,
      List.range_succ, ← hx]
    rfl
  · rw [arrive_items, List.length_append, List.length_singleton]
    by_cases hd : d = c
    · subst hd
      simp only [Lanes.arrive, Function.update_self]
      exact hrest
    · simp only [Lanes.arrive, Function.update_of_ne hd]
      cases hother : L.lane d with
      | nil => rfl
      | cons y ys =>
          have hy := h.lane d
          rw [hother, List.map_cons, List.length_cons, List.range'_succ, List.cons.injEq] at hy
          have hplace := (hsound.lane d y (by rw [hother]; exact List.mem_cons_self)).2
          rw [hy.1, ← hx, (hsound.lane c x (by rw [hfront]; exact List.mem_cons_self)).2] at hplace
          exact absurd (Place.lane.inj hplace).symm hd

lemma InSequence.quiet (h : L.InSequence) (hsound : L.Sound) (hstep : Quiet L L') :
    L'.InSequence := by
  cases hstep with
  | issue p b => exact ⟨h.arrived, h.lane⟩
  | giveUp p => exact ⟨h.arrived, h.lane⟩
  | arrive c x rest front => exact h.arrive hsound front
  | lose c =>
      refine ⟨h.arrived, fun d => ?_⟩
      by_cases hd : d = c
      · subst hd
        simp only [Lanes.lose, Function.update_self]
        rfl
      · simp only [Lanes.lose, Function.update_of_ne hd]
        exact h.lane d

lemma InSequence.quiets (h : L.InSequence) (hsound : L.Sound)
    (hrun : Relation.ReflTransGen Quiet L L') : L'.InSequence := by
  induction hrun with
  | refl => exact h
  | tail hrun hstep ih => exact ih.quiet (hsound.quiets hrun) hstep

end Steps

end Lanes

end Snova
