import Snova.Framework.Join
import Snova.Properties.DnsPointers
import Mathlib.Data.Int.Interval

/-!
# DNS names

What `dns_parse_name` does with the bytes of a message.

A call reads labels up to a terminator or a compression pointer and then calls itself at the
offset it takes from the pointer (`subOffset`), which is where the pointer of the message leads
(`subOffset_eq_some_iff_leadsTo`).  So the bytes of the message decide whether the chain of these
calls ends: it does not if an offset leads back to itself (`parseName_terminates_iff`).
-/

namespace Snova

open Relation

variable {m m' : ℤ → UInt8} {len o : ℤ}

/-! ## Results -/

/-- A call has at most one result. -/
lemma Returns.unique {α : Type} {call : ℕ → Reads ℤ UInt8 (Option α)} {r r' : α}
    (h : Returns m call r) (h' : Returns m call r') : r = r' := by
  obtain ⟨d, hd⟩ := h
  obtain ⟨d', hd'⟩ := h'
  have heq := (hd (max d d') (le_max_left d d')).symm.trans (hd' (max d d') (le_max_right d d'))
  exact Option.some.inj heq

/-- One level of `dns_parse_name`. -/
lemma eval_dnsParseName_succ (m : ℤ → UInt8) (depth : ℕ) (o len : ℤ) (name : Bytes) :
    (dnsParseName (depth + 1) o len name).eval m =
      if o = 0 ∨ len ≤ o then some (-1, name)
      else match (nameLoopAt o len).eval m with
        | .invalid => some (-1, name)
        | .terminator p tmp => some (0, assignName o p tmp name)
        | .pointer p tmp =>
            ((dnsParseName depth (m (p + 1)).toNat len []).eval m).map fun r =>
              (0, assignName o p tmp name ++ 46 :: r.2) := by
  rw [dnsParseName]
  split
  · rfl
  · rw [Reads.eval_bind]
    cases (nameLoopAt o len).eval m with
    | invalid => rfl
    | terminator p tmp => rfl
    | pointer p tmp =>
        simp only [Reads.eval_bind, Reads.eval_get]
        cases (dnsParseName depth (m (p + 1)).toNat len []).eval m with
        | none => rfl
        | some r => rfl

/-- A result stays the result when more calls are allowed. -/
lemma dnsParseName_mono {depth : ℕ} {name : Bytes} {r : ℤ × Bytes}
    (h : (dnsParseName depth o len name).eval m = some r) :
    (dnsParseName (depth + 1) o len name).eval m = some r := by
  induction depth generalizing o name r with
  | zero => cases h
  | succ depth ih =>
      rw [eval_dnsParseName_succ] at h ⊢
      split at h
      · next hout =>
          rw [if_pos hout]
          exact h
      · next hin =>
          rw [if_neg hin]
          cases hloop : (nameLoopAt o len).eval m with
          | invalid =>
              rw [hloop] at h
              exact h
          | terminator p tmp =>
              rw [hloop] at h
              exact h
          | pointer p tmp =>
              rw [hloop] at h
              obtain ⟨r', hr', rfl⟩ := Option.map_eq_some_iff.mp h
              simp only
              rw [ih hr', Option.map_some]

lemma returns_of_eval {depth : ℕ} {name : Bytes} {r : ℤ × Bytes}
    (h : (dnsParseName depth o len name).eval m = some r) :
    Returns m (fun d => dnsParseName d o len name) r := by
  refine ⟨depth, fun d hd => ?_⟩
  induction d, hd using Nat.le_induction with
  | base => exact h
  | succ d hd ih => exact dnsParseName_mono ih

/-! ## The chain of calls -/

/-- The offset at which a call at `o` calls itself, if it does. -/
def subOffset (m : ℤ → UInt8) (len o : ℤ) : Option ℤ :=
  if o = 0 ∨ len ≤ o then none
  else match (nameLoopAt o len).eval m with
    | .pointer p _ => some ((m (p + 1)).toNat : ℤ)
    | _ => none

/-- A call is not finished exactly if the chain of calls goes on for longer. -/
lemma dnsParseName_eq_none_iff {depth : ℕ} (name : Bytes) :
    (dnsParseName depth o len name).eval m = none ↔
      follow (subOffset m len) depth o ≠ none := by
  induction depth generalizing o name with
  | zero => exact iff_of_true rfl (Option.some_ne_none o)
  | succ depth ih =>
      rw [eval_dnsParseName_succ, follow_succ, subOffset]
      split
      · exact iff_of_false (Option.some_ne_none _) (fun h => h rfl)
      · cases (nameLoopAt o len).eval m with
        | invalid => exact iff_of_false (Option.some_ne_none _) (fun h => h rfl)
        | terminator p tmp => exact iff_of_false (Option.some_ne_none _) (fun h => h rfl)
        | pointer p tmp =>
            simp only [Option.map_eq_none_iff, Option.bind_some]
            exact ih []

lemma subOffset_eq_some_iff {c : ℤ} : subOffset m len o = some c ↔
    ¬ (o = 0 ∨ len ≤ o) ∧
      ∃ p tmp, (nameLoopAt o len).eval m = .pointer p tmp ∧ ((m (p + 1)).toNat : ℤ) = c := by
  unfold subOffset
  split
  · next hout => exact iff_of_false (Option.some_ne_none c).symm (fun h => h.1 hout)
  · next hin =>
      rw [and_iff_right hin]
      cases (nameLoopAt o len).eval m with
      | invalid => simp
      | terminator p tmp => simp
      | pointer p tmp => simp

/-- The calls follow the pointers. -/
lemma subOffset_eq_some_iff_leadsTo (m : ℤ → UInt8) (len o t : ℤ) :
    subOffset m len o = some t ↔ LeadsTo m len o t := by
  rw [subOffset_eq_some_iff]
  constructor
  · rintro ⟨hin, p, tmp, hloop, ht⟩
    exact ⟨p, pointsAt_iff.mpr ⟨fun hzero => hin (.inl hzero), tmp, hloop⟩, ht.symm⟩
  · rintro ⟨p, hpoints, ht⟩
    obtain ⟨hstart, tmp, hloop⟩ := pointsAt_iff.mp hpoints
    have hle := le_of_labels hpoints.1.labels
    have hlt := hpoints.1.inside
    exact ⟨by omega, p, tmp, hloop, ht.symm⟩

/-- An offset is taken from one byte. -/
lemma LeadsTo.mem {b c : ℤ} (h : LeadsTo m len b c) : 0 ≤ c ∧ c ≤ 255 := by
  obtain ⟨p, -, rfl⟩ := h
  have hlt := (m (p + 1)).toNat_lt
  constructor
  · omega
  · omega

/-- The pointers decide whether there is a result. -/
lemma exists_eval_iff_neverReturns (name : Bytes) :
    (∃ d r, (dnsParseName d o len name).eval m = some r) ↔ NeverReturns (LeadsTo m len) o := by
  rw [← exists_follow_eq_none_iff (subOffset_eq_some_iff_leadsTo m len)
    (Set.finite_Icc (0 : ℤ) 255) (fun b c h => Set.mem_Icc.mpr h.mem) o]
  refine exists_congr fun d => ?_
  rw [← Option.ne_none_iff_exists', ne_eq, dnsParseName_eq_none_iff, not_not]

/-- **When `dns_parse_name` terminates.**  For every message, length, offset and initial `name`,
it returns if and only if no offset to which the pointers of the message lead from there leads back
to itself. -/
theorem parseName_terminates_iff (m : ℤ → UInt8) (len o : ℤ) (name : Bytes) :
    (∃ r, Returns m (fun d => dnsParseName d o len name) r) ↔
      NeverReturns (LeadsTo m len) o := by
  rw [← exists_eval_iff_neverReturns name]
  constructor
  · rintro ⟨r, depth, hdepth⟩
    exact ⟨depth, r, hdepth depth (le_refl depth)⟩
  · rintro ⟨depth, r, hr⟩
    exact ⟨r, returns_of_eval hr⟩

/-- A message as a memory: nothing stands before or behind it. -/
def ofBytes (bs : Bytes) : ℤ → UInt8 := fun i => if 0 ≤ i then bs.getD i.toNat 0 else 0

/-- A query whose name is a pointer to itself. -/
def selfPointer : Bytes := [0, 1, 1, 0, 0, 1, 0, 0, 0, 0, 0, 0, 0xc0, 12]

/-- `handle_dns_query` parses the name at offset 12, and the call at offset 12 calls itself at
offset 12. -/
theorem parseName_selfPointer_loops :
    ¬ ∃ r, Returns (ofBytes selfPointer) (fun d => dnsParseName d 12 14 []) r := by
  have hsub : subOffset (ofBytes selfPointer) 14 12 = some 12 := by decide
  have hstays : ∀ d, (dnsParseName d 12 14 []).eval (ofBytes selfPointer) = none := by
    intro d
    rw [dnsParseName_eq_none_iff]
    induction d with
    | zero => exact Option.some_ne_none _
    | succ d ih =>
        rw [follow_succ, hsub]
        exact ih
  rintro ⟨r, depth, hdepth⟩
  have hnone := hstays depth
  rw [hdepth depth (le_refl depth)] at hnone
  cases hnone

/-! ## What is read -/

/-- No pointer on the way from `o` is cut by the end of the message: none has its first byte in the
place of the last one. -/
def NameInside (m : ℤ → UInt8) (len o : ℤ) : Prop :=
  0 ≤ o ∧ ∀ a, ReflTransGen (LeadsTo m len) o a → ¬ PointsAt m len a (len - 1)

/-- The condition is one on the call itself, and on the next one. -/
lemma NameInside.next {c : ℤ} (h : NameInside m len o) (hc : LeadsTo m len o c) :
    NameInside m len c := ⟨hc.mem.1, fun a ha => h.2 a (.head hc ha)⟩

lemma length_assignName {p : ℤ} {tmp : Bytes} (h : tmp.length = (p - o - 1).toNat) :
    (assignName o p tmp []).length = (p - o - 1).toNat := by
  unfold assignName
  split
  · rw [List.length_take, h, min_self]
  · rw [List.length_nil]
    omega

/-- What a call finds at a place without a name. -/
lemma eval_of_not_named (h : ¬ Named m len o) (d : ℕ) (name : Bytes) :
    (dnsParseName (d + 1) o len name).eval m = some (-1, name) := by
  rw [eval_dnsParseName_succ]
  split
  · rfl
  · next hin =>
      rw [(not_named_iff fun hzero => hin (.inl hzero)).mp h]

/-- What it finds of a name that ends at `p`. -/
lemma EndsAt.eval {p : ℤ} (h : EndsAt m len o p) (d : ℕ) :
    ∃ name, (dnsParseName (d + 1) o len []).eval m = some (0, name) ∧
      name.length = (p - o - 1).toNat := by
  obtain ⟨hstart, tmp, hloop⟩ := endsAt_iff.mp h
  have hle := le_of_labels h.1.labels
  have hlt := h.1.inside
  have hlength := length_tmp (.inl hloop)
  refine ⟨assignName o p tmp [], ?_, length_assignName hlength⟩
  rw [eval_dnsParseName_succ, if_neg (by omega), hloop]

/-- What it finds of a name that ends with the pointer at `p`: the labels, a dot and what it finds
where the pointer leads. -/
lemma PointsAt.eval {p : ℤ} (h : PointsAt m len o p) (d : ℕ) :
    ∃ labels : Bytes, labels.length = (p - o - 1).toNat ∧
      (dnsParseName (d + 1) o len []).eval m =
        ((dnsParseName d (m (p + 1)).toNat len []).eval m).map fun r =>
          (0, labels ++ 46 :: r.2) := by
  obtain ⟨hstart, tmp, hloop⟩ := pointsAt_iff.mp h
  have hle := le_of_labels h.1.labels
  have hlt := h.1.inside
  have hlength := length_tmp (.inr hloop)
  refine ⟨assignName o p tmp [], length_assignName hlength, ?_⟩
  rw [eval_dnsParseName_succ, if_neg (by omega), hloop]

/-- **How long a text `dns_parse_name` finds.** -/
lemma textSize_iff {n : ℕ} : TextSize m len o n ↔
    ∃ rc name, Returns m (fun d => dnsParseName d o len []) (rc, name) ∧ name.length = n := by
  constructor
  · intro h
    induction h with
    | nothing unnamed => exact ⟨-1, [], returns_of_eval (eval_of_not_named unnamed 0 []), rfl⟩
    | ends ends =>
        obtain ⟨name, heval, hlength⟩ := ends.eval 0
        exact ⟨0, name, returns_of_eval heval, hlength⟩
    | pointer points rest ih =>
        obtain ⟨rc, name, ⟨depth, hdepth⟩, rfl⟩ := ih
        obtain ⟨labels, hlength, heval⟩ := points.eval depth
        rw [hdepth depth (le_refl depth), Option.map_some] at heval
        refine ⟨0, labels ++ 46 :: name, returns_of_eval heval, ?_⟩
        rw [List.length_append, List.length_cons, hlength]
        omega
  · rintro ⟨rc, name, ⟨depth, hdepth⟩, rfl⟩
    have heval : (dnsParseName depth o len []).eval m = some (rc, name) :=
      hdepth depth (le_refl depth)
    clear hdepth
    -- on the depth: a name with a pointer has the text of the name that is found one call deeper
    induction depth generalizing o rc name with
    | zero => cases heval
    | succ depth ih =>
        by_cases hnamed : Named m len o
        · obtain ⟨p, hto, hzero | hflag⟩ := hnamed
          · obtain ⟨name', heval', hlength⟩ := EndsAt.eval ⟨hto, hzero⟩ depth
            rw [heval'] at heval
            obtain ⟨-, rfl⟩ := Prod.mk.inj (Option.some.inj heval)
            rw [hlength]
            exact .ends ⟨hto, hzero⟩
          · obtain ⟨labels, hlength, heval'⟩ := PointsAt.eval ⟨hto, hflag⟩ depth
            rw [heval'] at heval
            obtain ⟨⟨rc', name'⟩, hname', hr⟩ := Option.map_eq_some_iff.mp heval
            obtain ⟨-, rfl⟩ := Prod.mk.inj hr
            have hsize := TextSize.pointer ⟨hto, hflag⟩ (ih rc' name' hname')
            rw [List.length_append, List.length_cons, hlength]
            rw [Nat.add_right_comm, Nat.add_assoc] at hsize
            exact hsize
        · rw [eval_of_not_named hnamed] at heval
          obtain ⟨-, rfl⟩ := Prod.mk.inj (Option.some.inj heval)
          exact .nothing hnamed

/-- Nothing is found where there is no text. -/
lemma noText_iff_returns : NoText m len o ↔
    ∃ rc, Returns m (fun d => dnsParseName d o len []) (rc, []) := by
  rw [noText_iff, textSize_iff]
  simp only [List.length_eq_zero_iff, exists_eq_right]

end Snova
