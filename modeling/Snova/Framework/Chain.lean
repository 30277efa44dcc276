import Mathlib.Data.Fintype.Pigeonhole
import Mathlib.Data.Set.Finite.Basic
import Mathlib.Logic.Relation
import Mathlib.Tactic.Common

/-!
# Following a partial function

A reference that leads to another reference, which leads to another: `follow f n a` is where `n`
steps of a partial function lead from `a`, and `none` if there are fewer.  Which place leads to
which is a relation, and a chain may come back to a place or not (`NeverReturns`).  A chain through
finitely many places comes to an end exactly if it never does (`exists_follow_eq_none_iff`).

The last section is about a relation alone: what holds of all places in reach of some steps, and
where the only way ends.
-/

namespace Snova

open Relation

variable {α : Type*}

/-- Where `n` steps of `f` lead from `a`. -/
def follow (f : α → Option α) : ℕ → α → Option α
  | 0, a => some a
  | n + 1, a => (f a).bind (follow f n)

variable {f : α → Option α} {a b : α}

lemma follow_succ (f : α → Option α) (n : ℕ) (a : α) :
    follow f (n + 1) a = (f a).bind (follow f n) := rfl

lemma follow_add (f : α → Option α) (i j : ℕ) (a : α) :
    follow f (i + j) a = (follow f i a).bind (follow f j) := by
  induction i generalizing a with
  | zero => rw [Nat.zero_add, follow, Option.bind_some]
  | succ i ih =>
      rw [Nat.succ_add, follow_succ, follow_succ]
      cases f a with
      | none => rfl
      | some b =>
          rw [Option.bind_some, Option.bind_some]
          exact ih b

/-- The last step by itself. -/
lemma follow_succ' (f : α → Option α) (n : ℕ) (a : α) :
    follow f (n + 1) a = (follow f n a).bind f := by
  rw [follow_add]
  cases follow f n a with
  | none => rfl
  | some b =>
      rw [Option.bind_some, Option.bind_some, follow_succ]
      cases f b with
      | none => rfl
      | some c => rfl

lemma follow_eq_none_of_le {i j : ℕ} (hij : i ≤ j) (h : follow f i a = none) :
    follow f j a = none := by
  obtain ⟨k, rfl⟩ := Nat.exists_eq_add_of_le hij
  rw [follow_add, h, Option.bind_none]

/-- No place to which `r` leads from `a` leads back to itself. -/
def NeverReturns (r : α → α → Prop) (a : α) : Prop :=
  ∀ b, ReflTransGen r a b → ¬ TransGen r b b

variable {r : α → α → Prop}

/-- What comes later never returns either. -/
lemma NeverReturns.of_reflTransGen (h : NeverReturns r a) (hab : ReflTransGen r a b) :
    NeverReturns r b := fun c hbc => h c (hab.trans hbc)

lemma reflTransGen_of_follow (hr : ∀ x y, f x = some y ↔ r x y) {n : ℕ}
    (h : follow f n a = some b) : ReflTransGen r a b := by
  induction n generalizing a with
  | zero =>
      obtain rfl := Option.some.inj h
      exact .refl
  | succ n ih =>
      rw [follow_succ] at h
      obtain ⟨c, hc, h⟩ := Option.bind_eq_some_iff.mp h
      exact .head ((hr a c).mp hc) (ih h)

lemma exists_follow_of_reflTransGen (hr : ∀ x y, f x = some y ↔ r x y)
    (h : ReflTransGen r a b) : ∃ n, follow f n a = some b := by
  induction h with
  | refl => exact ⟨0, rfl⟩
  | tail hab hbc ih =>
      obtain ⟨n, hn⟩ := ih
      refine ⟨n + 1, ?_⟩
      rw [follow_succ', hn, Option.bind_some]
      exact (hr _ _).mpr hbc

/-- A place that leads back to itself does so in at least one step. -/
lemma transGen_iff_follow (hr : ∀ x y, f x = some y ↔ r x y) :
    TransGen r a b ↔ ∃ n, follow f (n + 1) a = some b := by
  rw [TransGen.head'_iff]
  constructor
  · rintro ⟨c, hac, hcb⟩
    obtain ⟨n, hn⟩ := exists_follow_of_reflTransGen hr hcb
    refine ⟨n, ?_⟩
    rw [follow_succ, (hr a c).mpr hac, Option.bind_some, hn]
  · rintro ⟨n, hn⟩
    rw [follow_succ] at hn
    obtain ⟨c, hc, hn⟩ := Option.bind_eq_some_iff.mp hn
    exact ⟨c, (hr a c).mp hc, reflTransGen_of_follow hr hn⟩

/-- A loop is never left. -/
lemma follow_mul_of_loop {k : ℕ} (h : follow f k a = some a) (n : ℕ) :
    follow f (k * n) a = some a := by
  induction n with
  | zero => rfl
  | succ n ih => rw [Nat.mul_succ, follow_add, ih, Option.bind_some, h]

/-- A chain that ends never returns. -/
lemma neverReturns_of_follow_eq_none (hr : ∀ x y, f x = some y ↔ r x y) {n : ℕ}
    (h : follow f n a = none) : NeverReturns r a := by
  intro b hab hbb
  obtain ⟨i, hi⟩ := exists_follow_of_reflTransGen hr hab
  obtain ⟨k, hk⟩ := (transGen_iff_follow hr).mp hbb
  have hloop : follow f (i + (k + 1) * n) a = some b := by
    rw [follow_add, hi, Option.bind_some]
    exact follow_mul_of_loop hk n
  have hle : n ≤ i + (k + 1) * n :=
    (Nat.le_mul_of_pos_left n (Nat.succ_pos k)).trans (Nat.le_add_left _ _)
  rw [follow_eq_none_of_le hle h] at hloop
  cases hloop

/-- A place that is come to twice leads back to itself. -/
lemma transGen_of_follow_twice (hr : ∀ x y, f x = some y ↔ r x y) {i j : ℕ} (hij : i < j)
    (hi : follow f i a = some b) (hj : follow f j a = some b) : TransGen r b b := by
  obtain ⟨k, rfl⟩ := Nat.exists_eq_add_of_lt hij
  rw [Nat.add_assoc, follow_add, hi, Option.bind_some] at hj
  exact (transGen_iff_follow hr).mpr ⟨k, hj⟩

/-- **A chain through finitely many places ends exactly if it never returns.** -/
lemma exists_follow_eq_none_iff (hr : ∀ x y, f x = some y ↔ r x y) {S : Set α} (hS : S.Finite)
    (hf : ∀ b c, r b c → c ∈ S) (a : α) :
    (∃ n, follow f n a = none) ↔ NeverReturns r a := by
  constructor
  · rintro ⟨n, hn⟩
    exact neverReturns_of_follow_eq_none hr hn
  · intro hnever
    by_contra hend
    push Not at hend
    have hplace : ∀ n, ∃ c ∈ S, follow f (n + 1) a = some c := by
      intro n
      obtain ⟨c, hc⟩ := Option.ne_none_iff_exists'.mp (hend (n + 1))
      have hlast := hc
      rw [follow_succ'] at hlast
      obtain ⟨b, -, hb⟩ := Option.bind_eq_some_iff.mp hlast
      exact ⟨c, hf b c ((hr b c).mp hb), hc⟩
    choose place hmem hplace using hplace
    have := hS.to_subtype
    -- Two of infinitely many steps lead to the same of finitely many places.
    obtain ⟨i, j, hij, heq⟩ :=
      Finite.exists_ne_map_eq_of_infinite fun n => (⟨place n, hmem n⟩ : S)
    have hsame : place i = place j := congrArg Subtype.val heq
    refine hnever (place i) (reflTransGen_of_follow hr (hplace i)) ?_
    obtain hlt | hlt := lt_or_gt_of_ne hij
    · exact transGen_of_follow_twice hr (Nat.succ_lt_succ hlt) (hplace i) (hsame ▸ hplace j)
    · exact transGen_of_follow_twice hr (Nat.succ_lt_succ hlt) (hsame ▸ hplace j) (hplace i)

/-! ## Chains of a relation -/

/-- Where there is one way, it ends at one place. -/
lemma eq_of_stuck {c : α} (hr : Relator.RightUnique r) (hb : ReflTransGen r a b)
    (hc : ReflTransGen r a c) (hbs : ∀ x, ¬ r b x) (hcs : ∀ x, ¬ r c x) : b = c := by
  obtain h | h := hb.total_of_right_unique hr hc
  · obtain heq | ⟨x, hx, -⟩ := h.cases_head
    · exact heq
    · exact absurd hx (hbs x)
  · obtain heq | ⟨x, hx, -⟩ := h.cases_head
    · exact heq.symm
    · exact absurd hx (hcs x)

end Snova
