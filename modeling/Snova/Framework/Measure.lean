import Snova.Framework.Exec

/-!
# Counting the steps of a run

A measure that one kind of steps lowers, and that the others raise by a bounded amount, bounds the
number of steps of the first kind by that of the others.  A component that cannot be stuck and
whose own steps are bounded in this way does what it has to do: it runs out of steps, and then it
has ended.
-/

namespace Snova

variable {σ α : Type*} {step : σ → α → Option σ}

/-- **The counting rule**, for the runs from a state with a property that every step keeps. -/
theorem exec_count_le {I : σ → Prop} {m : σ → ℕ} {own : α → Bool} {cost : α → ℕ}
    (hstep : ∀ s a s', I s → step s a = some s' → I s')
    (hown : ∀ s a s', I s → step s a = some s' → own a = true → m s' + 1 ≤ m s)
    (hother : ∀ s a s', I s → step s a = some s' → own a = false → m s' ≤ m s + cost a)
    {s t : σ} {as : List α} (hs : I s) (h : exec step s as = some t) :
    (as.filter own).length + m t ≤ m s + ((as.filter fun a => !own a).map cost).sum := by
  induction as generalizing s with
  | nil =>
      rw [exec_nil, Option.some_inj] at h
      simp [h]
  | cons a as ih =>
      obtain ⟨s', hs', hrest⟩ := exec_cons_eq_some.mp h
      have hle := ih (hstep s a s' hs hs') hrest
      cases hkind : own a with
      | true =>
          have hless := hown s a s' hs hs' hkind
          simp only [List.filter_cons, hkind, if_true, List.length_cons, Bool.not_true,
            Bool.false_eq_true, if_false]
          omega
      | false =>
          have hmore := hother s a s' hs hs' hkind
          simp only [List.filter_cons, hkind, Bool.false_eq_true, if_false, Bool.not_false,
            if_true, List.map_cons, List.sum_cons]
          omega

end Snova
