import Mathlib.Data.Set.Basic
import Mathlib.Data.List.Basic
import Mathlib.Tactic.Common

/-!
# Computations that read memory

Code that is given a pointer and a length may read any cell near the pointer; what keeps it
inside the length is its own checks.  `Reads` is such code: a computation that asks for the
contents of one cell after the other and goes on with the answers.  Against a memory it has a
result (`eval`) and a list of the cells it asked for (`indices`).

`ReadsIn m S x` says that on the memory `m` the computation `x` stays inside the set `S` of
cells; its rules follow the structure of the computation.  `ReadsIn.eval_eq` is what staying
inside is good for: two memories that agree on `S` give the same result, so nothing outside `S`
can leak into it.
-/

namespace Snova

/-- A computation over a memory with cells of type `β` at addresses of type `ι`. -/
inductive Reads (ι β α : Type)
  | pure (a : α)
  | read (i : ι) (k : β → Reads ι β α)

namespace Reads

variable {ι β α γ : Type}

/-- Run one computation, then another on its result. -/
def bind : Reads ι β α → (α → Reads ι β γ) → Reads ι β γ
  | .pure a, f => f a
  | .read i k, f => .read i fun b => (k b).bind f

instance : Monad (Reads ι β) where
  pure := .pure
  bind := .bind

/-- The contents of one cell. -/
def get (i : ι) : Reads ι β β := .read i .pure

/-- The contents of several cells, in the order of their addresses in the list. -/
def getMany : List ι → Reads ι β (List β)
  | [] => .pure []
  | i :: is => .read i fun b => (getMany is).bind fun bs => .pure (b :: bs)

/-- The result against a memory. -/
def eval (m : ι → β) : Reads ι β α → α
  | .pure a => a
  | .read i k => (k (m i)).eval m

/-- The cells that are read, in order. -/
def indices (m : ι → β) : Reads ι β α → List ι
  | .pure _ => []
  | .read i k => i :: (k (m i)).indices m

/-- All reads are inside `S`. -/
def ReadsIn (m : ι → β) (S : Set ι) (x : Reads ι β α) : Prop := ∀ i ∈ x.indices m, i ∈ S

variable {m m' : ι → β} {S : Set ι}

/-! ## Results -/

@[simp] lemma eval_pure (m : ι → β) (a : α) : (Pure.pure a : Reads ι β α).eval m = a := rfl

@[simp] lemma eval_get (m : ι → β) (i : ι) : (get i : Reads ι β β).eval m = m i := rfl

lemma eval_bind' (m : ι → β) (x : Reads ι β α) (f : α → Reads ι β γ) :
    (x.bind f).eval m = (f (x.eval m)).eval m := by
  induction x with
  | pure a => rfl
  | read i k ih => exact ih (m i)

@[simp] lemma eval_bind (m : ι → β) (x : Reads ι β α) (f : α → Reads ι β γ) :
    (x >>= f).eval m = (f (x.eval m)).eval m :=
  eval_bind' m x f

@[simp] lemma eval_getMany (m : ι → β) (is : List ι) :
    (getMany is : Reads ι β (List β)).eval m = is.map m := by
  induction is with
  | nil => rfl
  | cons i is ih =>
      show ((getMany is).bind fun bs => .pure (m i :: bs)).eval m = _
      rw [eval_bind', ih]
      rfl

/-! ## Reads -/

lemma indices_bind' (m : ι → β) (x : Reads ι β α) (f : α → Reads ι β γ) :
    (x.bind f).indices m = x.indices m ++ (f (x.eval m)).indices m := by
  induction x with
  | pure a => rfl
  | read i k ih =>
      show i :: ((k (m i)).bind f).indices m = _
      rw [ih]
      rfl

lemma indices_getMany (m : ι → β) (is : List ι) :
    (getMany is : Reads ι β (List β)).indices m = is := by
  induction is with
  | nil => rfl
  | cons i is ih =>
      show i :: ((getMany is).bind fun bs => .pure (m i :: bs)).indices m = _
      rw [indices_bind', ih]
      exact congrArg (i :: ·) (List.append_nil is)

@[simp] lemma readsIn_pure (m : ι → β) (S : Set ι) (a : α) :
    ReadsIn m S (Pure.pure a : Reads ι β α) := fun _ h => absurd h List.not_mem_nil

@[simp] lemma readsIn_get (m : ι → β) (S : Set ι) (i : ι) :
    ReadsIn m S (get i : Reads ι β β) ↔ i ∈ S := by
  simp [ReadsIn, get, indices]

@[simp] lemma readsIn_getMany (m : ι → β) (S : Set ι) (is : List ι) :
    ReadsIn m S (getMany is : Reads ι β (List β)) ↔ ∀ i ∈ is, i ∈ S := by
  rw [ReadsIn, indices_getMany]

/-- A sequence stays inside a set if both of its parts do, the second on the result of the
first. -/
@[simp] lemma readsIn_bind (m : ι → β) (S : Set ι) (x : Reads ι β α) (f : α → Reads ι β γ) :
    ReadsIn m S (x >>= f) ↔ ReadsIn m S x ∧ ReadsIn m S (f (x.eval m)) := by
  show (∀ i ∈ (x.bind f).indices m, i ∈ S) ↔ _
  rw [indices_bind']
  constructor
  · intro h
    exact ⟨fun i hi => h i (List.mem_append_left _ hi),
      fun i hi => h i (List.mem_append_right _ hi)⟩
  · rintro ⟨hx, hf⟩ i hi
    obtain hi | hi := List.mem_append.mp hi
    · exact hx i hi
    · exact hf i hi

/-- **Cells that are not read do not matter.** -/
lemma ReadsIn.eval_eq {x : Reads ι β α} (h : ReadsIn m S x) (hm : ∀ i ∈ S, m' i = m i) :
    x.eval m' = x.eval m := by
  induction x with
  | pure a => rfl
  | read i k ih =>
      have hi : m' i = m i := hm i (h i List.mem_cons_self)
      show (k (m' i)).eval m' = (k (m i)).eval m
      rw [hi]
      exact ih (m i) fun j hj => h j (List.mem_cons_of_mem i hj)

/-! ## Both at once -/

/-- The computation stays inside `S` and has the result `a`. -/
structure Yields (m : ι → β) (S : Set ι) (x : Reads ι β α) (a : α) : Prop where
  eval_eq : x.eval m = a
  readsIn : ReadsIn m S x

lemma yields_pure (m : ι → β) (S : Set ι) (a : α) : Yields m S (Pure.pure a : Reads ι β α) a :=
  ⟨rfl, readsIn_pure m S a⟩

lemma yields_get {i : ι} (h : i ∈ S) : Yields m S (get i : Reads ι β β) (m i) :=
  ⟨rfl, (readsIn_get m S i).mpr h⟩

lemma yields_getMany {is : List ι} (h : ∀ i ∈ is, i ∈ S) :
    Yields m S (getMany is : Reads ι β (List β)) (is.map m) :=
  ⟨eval_getMany m is, (readsIn_getMany m S is).mpr h⟩

lemma Yields.bind {x : Reads ι β α} {f : α → Reads ι β γ} {a : α} {c : γ}
    (hx : Yields m S x a) (hf : Yields m S (f a) c) : Yields m S (x >>= f) c := by
  constructor
  · rw [eval_bind, hx.eval_eq, hf.eval_eq]
  · rw [readsIn_bind, hx.eval_eq]
    exact ⟨hx.readsIn, hf.readsIn⟩

/-! ## Results with a property -/

/-- The computation stays inside `S`, and its result has the property `Q`. -/
structure Ensures (m : ι → β) (S : Set ι) (x : Reads ι β α) (Q : α → Prop) : Prop where
  readsIn : ReadsIn m S x
  holds : Q (x.eval m)

variable {Q : α → Prop}

lemma ensures_pure {a : α} (h : Q a) : Ensures m S (Pure.pure a : Reads ι β α) Q :=
  ⟨readsIn_pure m S a, h⟩

lemma Ensures.mono {T : Set ι} {x : Reads ι β α} {P Q : α → Prop} (h : Ensures m S x P)
    (hS : S ⊆ T) (hQ : ∀ a, P a → Q a) : Ensures m T x Q :=
  ⟨fun i hi => hS (h.readsIn i hi), hQ _ h.holds⟩

/-- A part with a known result can be passed over. -/
lemma Yields.ensures_bind {x : Reads ι β α} {f : α → Reads ι β γ} {a : α} {Q : γ → Prop}
    (hx : Yields m S x a) (h : Ensures m S (f a) Q) : Ensures m S (x >>= f) Q := by
  constructor
  · rw [readsIn_bind, hx.eval_eq]
    exact ⟨hx.readsIn, h.readsIn⟩
  · rw [eval_bind, hx.eval_eq]
    exact h.holds

end Reads

end Snova
