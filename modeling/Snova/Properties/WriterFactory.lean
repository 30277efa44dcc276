import Mathlib.Data.Prod.Lex
import Mathlib.Order.BoundedOrder.Basic
import Snova.Framework.Select
import Snova.Model.WriterFactory

/-!
# Which connection is chosen

`ComparePriority` compares three values of a connection in lexicographic order
(`comparePriority_pos_iff`), so the factory of a session chooses the first of the least loaded
connections (`eventWriter_selects`).
-/

namespace Snova

variable {κ : Type}

/-! ## The order of the connections -/

namespace ConnLoad

/-- The waiting writers, whether the mutex is locked, and the bytes sent in the latest window, in
lexicographic order. -/
def key (load : ConnLoad) : ℕ ×ₗ Bool ×ₗ ℕ :=
  toLex (load.waitCount, toLex (load.locked, load.sendRing.total.toNat))

variable {a b c : ConnLoad}

lemma key_lt_iff : a.key < b.key ↔ a.waitCount < b.waitCount ∨ a.waitCount = b.waitCount ∧
    (a.locked < b.locked ∨ a.locked = b.locked ∧
      a.sendRing.total.toNat < b.sendRing.total.toNat) := by
  rw [key, key, Prod.Lex.toLex_lt_toLex, Prod.Lex.toLex_lt_toLex]

/-- With the first two values equal, the bytes decide. -/
lemma comparePriority_of_eq (hwait : a.waitCount = b.waitCount) (hlocked : a.locked = b.locked) :
    a.comparePriority b = if a.sendRing.total < b.sendRing.total then 1
      else if a.sendRing.total > b.sendRing.total then -1 else 0 := by
  rw [comparePriority, hwait, hlocked, if_neg (Nat.lt_irrefl _), if_neg (Nat.lt_irrefl _)]
  cases b.locked with
  | false => rfl
  | true => rfl

/-- What `ComparePriority` returns. -/
lemma comparePriority_spec (a b : ConnLoad) :
    (a.key < b.key ∧ a.comparePriority b = 1) ∨ (a.key = b.key ∧ a.comparePriority b = 0) ∨
      (b.key < a.key ∧ a.comparePriority b = -1) := by
  rw [key_lt_iff, key_lt_iff]
  rcases lt_trichotomy a.waitCount b.waitCount with hwait | hwait | hwait
  · exact .inl ⟨.inl hwait, if_pos hwait⟩
  · by_cases hlocked : a.locked = b.locked
    · rw [comparePriority_of_eq hwait hlocked]
      rcases lt_trichotomy a.sendRing.total.toNat b.sendRing.total.toNat with hlt | heq | hlt
      · rw [if_pos (UInt64.lt_iff_toNat_lt.mpr hlt)]
        exact .inl ⟨.inr ⟨hwait, .inr ⟨hlocked, hlt⟩⟩, rfl⟩
      · rw [UInt64.toNat_inj.mp heq, if_neg (UInt64.lt_irrefl _), if_neg (UInt64.lt_irrefl _)]
        refine .inr (.inl ⟨?_, rfl⟩)
        rw [key, key, hwait, hlocked, heq]
      · have hlt' : b.sendRing.total < a.sendRing.total := UInt64.lt_iff_toNat_lt.mpr hlt
        rw [if_neg (UInt64.lt_asymm hlt'), if_pos hlt']
        exact .inr (.inr ⟨.inr ⟨hwait.symm, .inr ⟨hlocked.symm, hlt⟩⟩, rfl⟩)
    · rw [comparePriority, hwait, if_neg (Nat.lt_irrefl _), if_neg (Nat.lt_irrefl _)]
      cases ha : a.locked with
      | false =>
          have hb : b.locked = true := by rwa [ha, eq_comm, Bool.not_eq_false] at hlocked
          rw [hb]
          exact .inl ⟨.inr ⟨rfl, .inl (by decide)⟩, rfl⟩
      | true =>
          have hb : b.locked = false := by rwa [ha, eq_comm, Bool.not_eq_true] at hlocked
          rw [hb]
          exact .inr (.inr ⟨.inr ⟨rfl, .inl (by decide)⟩, rfl⟩)
  · exact .inr (.inr ⟨.inl hwait, (if_neg hwait.not_gt).trans (if_pos hwait)⟩)

lemma comparePriority_pos_iff : 0 < a.comparePriority b ↔ a.key < b.key := by
  rcases comparePriority_spec a b with ⟨hlt, hvalue⟩ | ⟨heq, hvalue⟩ | ⟨hlt, hvalue⟩
  · exact iff_of_true (by rw [hvalue]; decide) hlt
  · exact iff_of_false (by rw [hvalue]; decide) (by rw [heq]; exact lt_irrefl _)
  · exact iff_of_false (by rw [hvalue]; decide) hlt.not_gt

lemma comparePriority_nonneg_iff : 0 ≤ a.comparePriority b ↔ a.key ≤ b.key := by
  rcases comparePriority_spec a b with ⟨hlt, hvalue⟩ | ⟨heq, hvalue⟩ | ⟨hlt, hvalue⟩
  · exact iff_of_true (by rw [hvalue]; decide) hlt.le
  · exact iff_of_true (by rw [hvalue]) heq.le
  · exact iff_of_false (by rw [hvalue]; decide) hlt.not_ge

/-- The two argument orders agree. -/
lemma comparePriority_swap (a b : ConnLoad) : b.comparePriority a = -a.comparePriority b := by
  rcases comparePriority_spec a b with ⟨h, hvalue⟩ | ⟨h, hvalue⟩ | ⟨h, hvalue⟩
  · rcases comparePriority_spec b a with ⟨h', -⟩ | ⟨h', -⟩ | ⟨-, hvalue'⟩
    · exact absurd h' h.not_gt
    · exact absurd h'.symm h.ne
    · rw [hvalue, hvalue']
  · rcases comparePriority_spec b a with ⟨h', -⟩ | ⟨-, hvalue'⟩ | ⟨h', -⟩
    · exact absurd h h'.ne'
    · rw [hvalue, hvalue']
      rfl
    · exact absurd h h'.ne
  · rcases comparePriority_spec b a with ⟨-, hvalue'⟩ | ⟨h', -⟩ | ⟨h', -⟩
    · rw [hvalue, hvalue']
      rfl
    · exact absurd h' h.ne
    · exact absurd h' h.not_gt

end ConnLoad

/-! ## The loop -/

/-- What is selected in the slots so far. -/
def Selected (load : κ → ConnLoad) (conns : List (Option κ)) : Option (ℕ × κ) → Prop
  | none => ∀ c ∈ conns, c = none
  | some (i, conn) => IsFirstMin (fun c => (load c).key) conns i conn

lemma selected_selectLoop {load : κ → ConnLoad} {done : List (Option κ)} (rest : List (Option κ))
    {selected : Option (ℕ × κ)} (h : Selected load done selected) :
    Selected load (done ++ rest) (selectLoop load rest done.length selected) := by
  induction rest generalizing done selected with
  | nil => rwa [List.append_nil]
  | cons c rest ih =>
      have hlen : (done ++ [c]).length = done.length + 1 := by
        rw [List.length_append, List.length_singleton]
      rw [List.append_cons]
      cases c with
      | none =>
          rw [selectLoop, ← hlen]
          apply ih
          cases selected with
          | none =>
              intro c hc
              obtain hc | hc := List.mem_append.mp hc
              · exact h c hc
              · exact List.mem_singleton.mp hc
          | some selected => exact IsFirstMin.concat_none h
      | some conn =>
          cases selected with
          | none =>
              rw [selectLoop, ← hlen]
              apply ih
              exact isFirstMin_concat_first _ h conn
          | some selected =>
              obtain ⟨selectIdx, best⟩ := selected
              rw [selectLoop]
              split
              · next hbetter =>
                  rw [← hlen]
                  apply ih
                  exact IsFirstMin.concat_of_lt h (ConnLoad.comparePriority_pos_iff.mp hbetter)
              · next hnot =>
                  rw [← hlen]
                  apply ih
                  apply IsFirstMin.concat_of_le h
                  rwa [ConnLoad.comparePriority_pos_iff, not_lt] at hnot

lemma selected_eventWriter (load : κ → ConnLoad) (session : MuxSession κ) :
    Selected load session.conns (selectLoop load session.conns 0 none) := by
  have hnil : Selected load [] none := fun c hc => absurd hc List.not_mem_nil
  exact selected_selectLoop session.conns hnil

lemma eventWriter_eq_none_iff (load : κ → ConnLoad) (session : MuxSession κ) :
    session.eventWriter load = none ↔ ∀ c ∈ session.conns, c = none := by
  have hselected := selected_eventWriter load session
  rw [MuxSession.eventWriter, Option.map_eq_none_iff]
  constructor
  · intro hnone
    rwa [hnone] at hselected
  · intro hall
    cases hloop : selectLoop load session.conns 0 none with
    | none => rfl
    | some selected =>
        rw [hloop] at hselected
        cases hall _ (List.mem_of_getElem? (IsFirstMin.getElem? hselected))

lemma eventWriter_eq_some_iff (load : κ → ConnLoad) (session : MuxSession κ) (i : ℕ) :
    session.eventWriter load = some i ↔
      ∃ conn, IsFirstMin (fun c => (load c).key) session.conns i conn := by
  have hselected := selected_eventWriter load session
  rw [MuxSession.eventWriter, Option.map_eq_some_iff]
  constructor
  · rintro ⟨⟨j, conn⟩, hloop, rfl⟩
    rw [hloop] at hselected
    exact ⟨conn, hselected⟩
  · rintro ⟨conn, hmin⟩
    cases hloop : selectLoop load session.conns 0 none with
    | none =>
        rw [hloop] at hselected
        cases hselected _ (List.mem_of_getElem? hmin.getElem?)
    | some selected =>
        rw [hloop] at hselected
        exact ⟨selected, rfl, IsFirstMin.unique hselected hmin⟩

/-- **The factory chooses the first of the least loaded connections.**  For every array of
connections, with empty slots or without, it returns no writer exactly if all slots are empty;
otherwise its writer writes to the first slot whose connection has the least number of waiting
writers, is unlocked if there is such a one, and has sent the least bytes.  `ComparePriority` is a
total preorder, the same in both argument orders. -/
theorem eventWriter_selects (load : κ → ConnLoad) (session : MuxSession κ) :
    (session.eventWriter load = none ↔ ∀ c ∈ session.conns, c = none) ∧
    (∀ i, session.eventWriter load = some i ↔
      ∃ conn, IsFirstMin (fun c => (load c).key) session.conns i conn) ∧
    (∀ a b : ConnLoad, b.comparePriority a = -a.comparePriority b) ∧
    (∀ a b : ConnLoad, 0 ≤ a.comparePriority b ↔ a.key ≤ b.key) ∧
    (∀ a b c : ConnLoad, 0 ≤ a.comparePriority b → 0 ≤ b.comparePriority c →
      0 ≤ a.comparePriority c) := by
  refine ⟨eventWriter_eq_none_iff load session, eventWriter_eq_some_iff load session,
    ConnLoad.comparePriority_swap, fun a b => ConnLoad.comparePriority_nonneg_iff,
    fun a b c hab hbc => ?_⟩
  rw [ConnLoad.comparePriority_nonneg_iff] at hab hbc ⊢
  exact hab.trans hbc

end Snova
