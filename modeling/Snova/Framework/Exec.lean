import Mathlib.Tactic.Common
import Mathlib.Data.List.Basic
import Mathlib.Algebra.BigOperators.Fin
import Mathlib.Algebra.Order.BigOperators.Group.Finset

/-!
# Runs of a step function

A concurrent component is given here by a *partial step function*: `step s a = some s'` when
action `a` is possible in state `s` and leads to `s'`, `none` when it is not.  A run is a list
of actions, `exec` performs it, and a schedule is nothing more than the list, so "any
interleaving" is a quantifier over lists.  Every prefix of a run is itself a run, so a
statement about the last state of every run is a statement about every state reached.

Three induction rules carry the invariants of the development: `exec_invariant`, for a property
that every step preserves, `exec_invariant_actions`, for one that relates the state to the actions
taken so far, and `exec_invariant_along`, for one that is preserved by the steps that meet a
condition on the state they are taken from (`Along`).  `exec_map` is the rule for refinements.

The last sections are about families of values, one for each coroutine: counting the members by
their value turns "the number of coroutines at this point" into arithmetic, and `Queued` says that
the members with one value are those in a queue.
-/

namespace Snova

/-! ## Runs -/

section Exec

variable {σ α : Type*}

/-- Perform a list of actions, first to last; `none` as soon as one of them is impossible. -/
def exec (step : σ → α → Option σ) : σ → List α → Option σ
  | s, [] => some s
  | s, a :: as => (step s a).bind fun s' => exec step s' as

variable {step : σ → α → Option σ}

@[simp] lemma exec_nil (s : σ) : exec step s [] = some s := rfl

lemma exec_cons (s : σ) (a : α) (as : List α) :
    exec step s (a :: as) = (step s a).bind fun s' => exec step s' as := rfl

lemma exec_cons_of_step {s s' : σ} {a : α} (h : step s a = some s') (as : List α) :
    exec step s (a :: as) = exec step s' as := by
  rw [exec_cons, h, Option.bind_some]

lemma exec_cons_eq_some {s t : σ} {a : α} {as : List α} :
    exec step s (a :: as) = some t ↔ ∃ s', step s a = some s' ∧ exec step s' as = some t := by
  rw [exec_cons, Option.bind_eq_some_iff]

lemma exec_append {s t : σ} {as : List α} (h : exec step s as = some t) (bs : List α) :
    exec step s (as ++ bs) = exec step t bs := by
  induction as generalizing s with
  | nil =>
      rw [exec_nil, Option.some_inj] at h
      rw [List.nil_append, h]
  | cons a as ih =>
      obtain ⟨s', hs', hrest⟩ := exec_cons_eq_some.mp h
      rw [List.cons_append, exec_cons_of_step hs', ih hrest]

/-- **The invariant rule.**  What holds at the start of a run and is preserved by every step
holds at its end. -/
theorem exec_invariant {I : σ → Prop}
    (hstep : ∀ s a s', I s → step s a = some s' → I s')
    {s t : σ} {as : List α} (hs : I s) (h : exec step s as = some t) : I t := by
  induction as generalizing s with
  | nil =>
      rw [exec_nil, Option.some_inj] at h
      exact h ▸ hs
  | cons a as ih =>
      obtain ⟨s', hs', hrest⟩ := exec_cons_eq_some.mp h
      exact ih (hstep s a s' hs hs') hrest

/-- **The invariant rule with the actions so far.**  The invariant relates a state to the actions
that have led to it. -/
theorem exec_invariant_actions {I : List α → σ → Prop}
    (hstep : ∀ done s a s', I done s → step s a = some s' → I (done ++ [a]) s')
    {s t : σ} {as : List α} (hs : I [] s) (h : exec step s as = some t) : I as t := by
  suffices hall : ∀ done s, I done s → exec step s as = some t → I (done ++ as) t from
    hall [] s hs h
  clear hs h
  induction as with
  | nil =>
      intro done s hs h
      rw [exec_nil, Option.some_inj] at h
      rw [List.append_nil]
      exact h ▸ hs
  | cons a as ih =>
      intro done s hs h
      obtain ⟨s', hs', hrest⟩ := exec_cons_eq_some.mp h
      rw [List.append_cons]
      exact ih (done ++ [a]) s' (hstep done s a s' hs hs') hrest

/-- **The simulation rule.**  If every step of one system is a step of another one, every run is a
run of the other one. -/
theorem exec_map {τ β : Type*} {step' : τ → β → Option τ} {f : σ → τ} {g : α → β}
    (hstep : ∀ s a s', step s a = some s' → step' (f s) (g a) = some (f s')) {s t : σ}
    {as : List α} (h : exec step s as = some t) : exec step' (f s) (as.map g) = some (f t) := by
  induction as generalizing s with
  | nil =>
      rw [exec_nil, Option.some_inj] at h
      rw [List.map_nil, exec_nil, h]
  | cons a as ih =>
      obtain ⟨s', hs', hrest⟩ := exec_cons_eq_some.mp h
      rw [List.map_cons, exec_cons_of_step (hstep s a s' hs'), ih hrest]

/-- Every step of the run is taken in a state where `C` allows it. -/
def Along (step : σ → α → Option σ) (C : σ → α → Prop) : σ → List α → Prop
  | _, [] => True
  | s, a :: as => C s a ∧ ∀ s', step s a = some s' → Along step C s' as

instance Along.decidable {C : σ → α → Prop} [∀ s a, Decidable (C s a)] :
    (s : σ) → (as : List α) → Decidable (Along step C s as)
  | _, [] => inferInstanceAs (Decidable True)
  | s, a :: as =>
      match hs : step s a with
      | some s' =>
          have := Along.decidable (C := C) s' as
          decidable_of_iff (C s a ∧ Along step C s' as) (by simp [Along, hs])
      | none => decidable_of_iff (C s a) (by simp [Along, hs])

lemma along_of_forall {C : σ → α → Prop} {as : List α} (h : ∀ a ∈ as, ∀ s, C s a) (s : σ) :
    Along step C s as := by
  induction as generalizing s with
  | nil => trivial
  | cons a as ih =>
      exact ⟨h a List.mem_cons_self s,
        fun s' _ => ih (fun b hb => h b (List.mem_cons_of_mem a hb)) s'⟩

lemma Along.cons {C : σ → α → Prop} {s s' : σ} {a : α} {as : List α} (hC : C s a)
    (h : step s a = some s') (has : Along step C s' as) : Along step C s (a :: as) := by
  refine ⟨hC, fun t ht => ?_⟩
  rw [h] at ht
  exact Option.some.inj ht ▸ has

lemma Along.and {C D : σ → α → Prop} {s : σ} {as : List α} (hC : Along step C s as)
    (hD : Along step D s as) : Along step (fun s a => C s a ∧ D s a) s as := by
  induction as generalizing s with
  | nil => trivial
  | cons a as ih =>
      exact ⟨⟨hC.1, hD.1⟩, fun s' hs' => ih (hC.2 s' hs') (hD.2 s' hs')⟩

/-- **The invariant rule for conditioned runs.**  The invariant need only be preserved by the
steps that meet the condition. -/
theorem exec_invariant_along {I : σ → Prop} {C : σ → α → Prop}
    (hstep : ∀ s a s', I s → C s a → step s a = some s' → I s')
    {s t : σ} {as : List α} (hs : I s) (hC : Along step C s as)
    (h : exec step s as = some t) : I t := by
  induction as generalizing s with
  | nil =>
      rw [exec_nil, Option.some_inj] at h
      exact h ▸ hs
  | cons a as ih =>
      obtain ⟨s', hs', hrest⟩ := exec_cons_eq_some.mp h
      exact ih (hstep s a s' hs hC.1 hs') (hC.2 s' hs') hrest

end Exec

/-! ## Counting by value -/

section Count

variable {κ π : Type*} [Fintype κ]

/-- The total weight a family of values has. -/
def weight (w : π → ℕ) (f : κ → π) : ℕ := ∑ d, w (f d)

/-- Changing one member moves the total by that member's own change. -/
lemma weight_update [DecidableEq κ] (w : π → ℕ) (f : κ → π) (c : κ) (x : π) :
    weight w (Function.update f c x) + w (f c) = weight w f + w x := by
  have hsum : weight w (Function.update f c x)
      = w x + ∑ d ∈ Finset.univ \ {c}, w (f d) := by
    have hcomp : (fun d => w (Function.update f c x d))
        = Function.update (fun d => w (f d)) c (w x) := by
      funext d
      exact Function.apply_update (fun _ => w) f c x d
    rw [weight, hcomp, Finset.sum_update_of_mem (Finset.mem_univ c)]
  have hsplit : weight w f = w (f c) + ∑ d ∈ Finset.univ \ {c}, w (f d) := by
    rw [weight, ← Finset.sum_sdiff (Finset.subset_univ {c}), Finset.sum_singleton, add_comm]
  omega

lemma weight_pos_of_mem {w : π → ℕ} {f : κ → π} {c : κ} (h : 0 < w (f c)) :
    0 < weight w f :=
  Finset.sum_pos' (fun _ _ => Nat.zero_le _) ⟨c, Finset.mem_univ c, h⟩

end Count

/-! ## Queues of members -/

section Queue

variable {κ π : Type*}

/-- The members with the value `q` are those in the queue, each once. -/
structure Queued (f : κ → π) (q : π) (l : List κ) : Prop where
  mem_iff : ∀ c, f c = q ↔ c ∈ l
  nodup : l.Nodup

namespace Queued

variable [DecidableEq κ] {f : κ → π} {q x : π} {l : List κ} {c : κ}

/-- A member elsewhere goes elsewhere. -/
lemma keep (h : Queued f q l) (hold : f c ≠ q) (hnew : x ≠ q) :
    Queued (Function.update f c x) q l := by
  refine ⟨fun d => ?_, h.nodup⟩
  rw [← h.mem_iff d]
  by_cases hd : d = c
  · subst hd
    simp [hold, hnew]
  · rw [Function.update_of_ne hd]

/-- A member joins the queue. -/
lemma push (h : Queued f q l) (hold : f c ≠ q) : Queued (Function.update f c q) q (l ++ [c]) := by
  have hc : c ∉ l := fun hmem => hold ((h.mem_iff c).mpr hmem)
  constructor
  · intro d
    rw [List.mem_append, List.mem_singleton, ← h.mem_iff d]
    by_cases hd : d = c
    · simp [hd]
    · simp [hd]
  · exact List.nodup_append.mpr ⟨h.nodup, List.nodup_singleton c, by
      rintro a ha b hb rfl
      exact hc (List.mem_singleton.mp hb ▸ ha)⟩

/-- The first member leaves the queue. -/
lemma pop (h : Queued f q (c :: l)) (hnew : x ≠ q) : Queued (Function.update f c x) q l := by
  obtain ⟨hc, hl⟩ := List.nodup_cons.mp h.nodup
  refine ⟨fun d => ?_, hl⟩
  by_cases hd : d = c
  · subst hd
    simp [hnew, hc]
  · rw [Function.update_of_ne hd, h.mem_iff d, List.mem_cons]
    exact or_iff_right hd

end Queued

end Queue

end Snova
