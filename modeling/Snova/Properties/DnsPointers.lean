import Snova.Framework.Chain
import Snova.Model.DnsParse

/-!
# Labels and pointers in a message

Where a name leads is a matter of its bytes alone.  The relations of this module say it: which
position stands behind a label (`LabelStep`), where the labels of a name come to an end or to a
pointer (`EndsAt`, `PointsAt`), which offset is in the second byte of the pointer (`LeadsTo`), and
how long a text is written there (`TextSize`).  They take from `dns_parse_name` what it accepts as
a label, that is, length bytes up to 191 and 256 bytes of labels, and nothing else.

`nameLoopAt_describes` says that the loop of `dns_parse_name` finds these positions.
-/

namespace Snova

open Relation

variable {m : ℤ → UInt8} {len o p q : ℤ}

/-! ## The positions -/

/-- A length byte at `p`, other than zero, with so many bytes behind it inside the message.  The
next length byte is at `q`. -/
structure LabelStep (m : ℤ → UInt8) (len p q : ℤ) : Prop where
  size : m p ≠ 0
  inside : p + (m p).toNat < len
  next : q = p + 1 + (m p).toNat

/-- A label of the name at `o`: the length byte is not the first one of a pointer, and the text up
to its end fits into the temporary. -/
structure NameStep (m : ℤ → UInt8) (len o p q : ℤ) : Prop extends LabelStep m len p q where
  label : (m p).toNat < 192
  fits : q ≤ o + maxStrLen

/-- The labels of the name at `o` come to `p`.  There is no name at the beginning of a message. -/
structure LabelsTo (m : ℤ → UInt8) (len o p : ℤ) : Prop where
  start : o ≠ 0
  labels : ReflTransGen (NameStep m len o) o p
  inside : p < len

/-- The name at `o` ends with the zero byte at `p`. -/
def EndsAt (m : ℤ → UInt8) (len o p : ℤ) : Prop := LabelsTo m len o p ∧ m p = 0

/-- The name at `o` ends with the pointer at `p`. -/
def PointsAt (m : ℤ → UInt8) (len o p : ℤ) : Prop := LabelsTo m len o p ∧ 192 ≤ (m p).toNat

/-- The name at `o` ends with a pointer whose second byte is `t`. -/
def LeadsTo (m : ℤ → UInt8) (len o t : ℤ) : Prop :=
  ∃ p, PointsAt m len o p ∧ t = (m (p + 1)).toNat

/-- There is a name at `o`. -/
def Named (m : ℤ → UInt8) (len o : ℤ) : Prop :=
  ∃ p, LabelsTo m len o p ∧ (m p = 0 ∨ 192 ≤ (m p).toNat)

/-- The text at `o` has `n` bytes: the labels with the dots between them and, if there is a
pointer, a dot and the text it leads to. -/
inductive TextSize (m : ℤ → UInt8) (len : ℤ) : ℤ → ℕ → Prop
  | nothing {o : ℤ} (unnamed : ¬ Named m len o) : TextSize m len o 0
  | ends {o p : ℤ} (ends : EndsAt m len o p) : TextSize m len o (p - o - 1).toNat
  | pointer {o p : ℤ} {n : ℕ} (points : PointsAt m len o p)
      (rest : TextSize m len (m (p + 1)).toNat n) :
      TextSize m len o ((p - o - 1).toNat + 1 + n)

/-- There is no text at `o`: no name, or the root. -/
def NoText (m : ℤ → UInt8) (len o : ℤ) : Prop :=
  ∀ p, LabelsTo m len o p → (m p).toNat < 192 ∧ (m p = 0 → p = o)

/-- The offset of a pointer: 14 bits. -/
def pointerOffset (m : ℤ → UInt8) (p : ℤ) : ℤ := 256 * ((m p).toNat % 64) + (m (p + 1)).toNat

/-! ## There is one way -/

lemma nameStep_rightUnique (m : ℤ → UInt8) (len o : ℤ) :
    Relator.RightUnique (NameStep m len o) := by
  intro a b c hb hc
  rw [hb.next, hc.next]

lemma not_nameStep_of_end (h : m p = 0 ∨ 192 ≤ (m p).toNat) : ¬ NameStep m len o p q := by
  intro hstep
  obtain hzero | hflag := h
  · exact hstep.size hzero
  · exact absurd hstep.label (by omega)

lemma toNat_pos_of_ne_zero {b : UInt8} (h : b ≠ 0) : 0 < b.toNat := by
  rw [Nat.pos_iff_ne_zero, ne_eq, ← UInt8.toNat_zero, UInt8.toNat_inj]
  exact h

/-- A label takes at least two bytes. -/
lemma NameStep.add_two_le (h : NameStep m len o p q) : p + 2 ≤ q := by
  have hpos := toNat_pos_of_ne_zero h.size
  have hnext := h.next
  omega

lemma le_of_labels (h : ReflTransGen (NameStep m len o) p q) : p = q ∨ p + 2 ≤ q := by
  induction h with
  | refl => exact .inl rfl
  | tail _ hstep ih =>
      have htwo := hstep.add_two_le
      right
      omega

/-- Labels end at one place. -/
lemma labels_end_unique (hp : ReflTransGen (NameStep m len o) o p)
    (hq : ReflTransGen (NameStep m len o) o q) (hpe : m p = 0 ∨ 192 ≤ (m p).toNat)
    (hqe : m q = 0 ∨ 192 ≤ (m q).toNat) : p = q :=
  eq_of_stuck (nameStep_rightUnique m len o) hp hq (fun _ => not_nameStep_of_end hpe)
    fun _ => not_nameStep_of_end hqe

lemma EndsAt.named (h : EndsAt m len o p) : Named m len o := ⟨p, h.1, .inl h.2⟩

lemma PointsAt.named (h : PointsAt m len o p) : Named m len o := ⟨p, h.1, .inr h.2⟩

lemma lt_flag_of_zero {b : UInt8} (h : b = 0) : b.toNat < 192 := by
  rw [h]
  decide

/-- No text has zero bytes. -/
lemma noText_iff : NoText m len o ↔ TextSize m len o 0 := by
  constructor
  · intro h
    by_cases hnamed : Named m len o
    · obtain ⟨p, hto, hend⟩ := hnamed
      obtain ⟨hlt, hroot⟩ := h p hto
      obtain hzero | hflag := hend
      · have hends : TextSize m len o (p - o - 1).toNat := .ends ⟨hto, hzero⟩
        rw [hroot hzero, sub_self] at hends
        exact hends
      · omega
    · exact .nothing hnamed
  · intro h p hto
    generalize hn : (0 : ℕ) = n at h
    cases h with
    | nothing unnamed =>
        have hno : ¬ (m p = 0 ∨ 192 ≤ (m p).toNat) := fun hend => unnamed ⟨p, hto, hend⟩
        rw [not_or] at hno
        exact ⟨by omega, fun hzero => absurd hzero hno.1⟩
    | @ends _ p' ends =>
        have hle := le_of_labels ends.1.labels
        obtain rfl : o = p' := by omega
        by_cases hend : m p = 0 ∨ 192 ≤ (m p).toNat
        · obtain rfl := labels_end_unique hto.labels ends.1.labels hend (.inl ends.2)
          exact ⟨lt_flag_of_zero ends.2, fun _ => rfl⟩
        · rw [not_or] at hend
          exact ⟨by omega, fun hzero => absurd hzero hend.1⟩
    | pointer points rest => omega

/-! ## The loop -/

lemma isPointer_iff (b : UInt8) : isPointer b = true ↔ 192 ≤ b.toNat := by
  have hall : ∀ v : BitVec 8, (v &&& 0xc0#8 = 0xc0#8) ↔ 192 ≤ v.toNat := by decide
  rw [isPointer, decide_eq_true_iff, ← UInt8.toBitVec_inj]
  exact hall b.toBitVec

/-- What the end of the loop says about the name at `o`, of which the labels up to `p` are read. -/
def NameEnd.Describes (m : ℤ → UInt8) (len o p : ℤ) : NameEnd → Prop
  | .invalid => ∀ q, ReflTransGen (NameStep m len o) p q → q < len →
      ¬ (m q = 0 ∨ 192 ≤ (m q).toNat)
  | .terminator q tmp => ReflTransGen (NameStep m len o) p q ∧ q < len ∧ m q = 0 ∧
      tmp.length = (q - o - 1).toNat
  | .pointer q tmp => ReflTransGen (NameStep m len o) p q ∧ q < len ∧ 192 ≤ (m q).toNat ∧
      tmp.length = (q - o - 1).toNat

/-- One label more. -/
lemma NameEnd.Describes.head {r : NameEnd} (hstep : NameStep m len o p q)
    (h : r.Describes m len o q) : r.Describes m len o p := by
  cases r with
  | invalid =>
      intro q' hq' hlt
      obtain rfl | ⟨c, hc, hrest⟩ := hq'.cases_head
      · exact fun hend => not_nameStep_of_end hend hstep
      · obtain rfl := nameStep_rightUnique m len o hstep hc
        exact h q' hrest hlt
  | terminator q' tmp => exact ⟨.head hstep h.1, h.2⟩
  | pointer q' tmp => exact ⟨.head hstep h.1, h.2⟩

/-- Where the loop gives up, no label follows, and there is no end. -/
lemma describes_invalid (hstuck : ∀ q, ¬ NameStep m len o p q)
    (hno : ¬ (m p = 0 ∨ 192 ≤ (m p).toNat)) : NameEnd.invalid.Describes m len o p := by
  intro q hq _
  obtain rfl | ⟨c, hc, -⟩ := hq.cases_head
  · exact hno
  · exact absurd hc (hstuck c)

lemma describes_invalid_of_le (h : len ≤ p) : NameEnd.invalid.Describes m len o p := by
  intro q hq hlt
  have hle := le_of_labels hq
  omega

lemma length_appendLabel (tmp label : Bytes) :
    (appendLabel tmp label).length =
      if tmp = [] then label.length else tmp.length + 1 + label.length := by
  unfold appendLabel
  split
  · next h => rw [h, List.nil_append]
  · rw [List.length_append, List.length_append, List.length_singleton]

/-- **The loop follows the labels.** -/
lemma nameLoop_describes {left : ℕ} {tmp : Bytes} (hp : p = o ∨ o + 2 ≤ p)
    (hleft : (len - p).toNat ≤ left) (htmp : tmp.length = (p - o - 1).toNat) :
    ((nameLoop len left p tmp).eval m).Describes m len o p := by
  induction left generalizing p tmp with
  | zero => exact describes_invalid_of_le (by omega)
  | succ left ih =>
      rw [nameLoop]
      split
      · next hlt =>
          rw [Reads.eval_bind, Reads.eval_get]
          simp only
          split
          · next hpointer => exact ⟨.refl, hlt, (isPointer_iff _).mp hpointer, htmp⟩
          next hlabel =>
          rw [isPointer_iff] at hlabel
          split
          · next hout =>
              refine describes_invalid (fun q hstep => ?_) ?_
              · exact absurd hstep.inside (by omega)
              · rintro (hzero | hflag)
                · rw [hzero, UInt8.toNat_zero] at hout
                  omega
                · exact hlabel hflag
          next hin =>
          split
          · next hzero =>
              exact ⟨.refl, hlt, UInt8.toNat_inj.mp (hzero.trans UInt8.toNat_zero.symm), htmp⟩
          next hsize =>
          have hsize' : m p ≠ 0 := by
            intro hzero
            rw [hzero] at hsize
            exact hsize UInt8.toNat_zero
          have hbyte := (m p).toNat_lt
          split
          · next hlong =>
              unfold maxStrLen at hlong
              refine describes_invalid (fun q hstep => ?_) (not_or.mpr ⟨hsize', hlabel⟩)
              have hfits := hstep.fits
              have hnext := hstep.next
              unfold maxStrLen at hfits
              omega
          · next hfits =>
              unfold maxStrLen at hfits
              have hstep : NameStep m len o p (p + 1 + (m p).toNat) :=
                { size := hsize'
                  inside := by omega
                  next := rfl
                  label := by omega
                  fits := by
                    unfold maxStrLen
                    omega }
              rw [Reads.eval_bind, Reads.eval_getMany]
              refine .head hstep (ih (by omega) (by omega) ?_)
              rw [length_appendLabel, List.length_map, cellsFrom, List.length_map,
                List.length_range]
              split
              · next hnil =>
                  rw [hnil, List.length_nil] at htmp
                  omega
              · next hne =>
                  have hpos := List.length_pos_iff.mpr hne
                  omega
      · next hend => exact describes_invalid_of_le (by omega)

lemma nameLoopAt_describes (m : ℤ → UInt8) (len o : ℤ) :
    ((nameLoopAt o len).eval m).Describes m len o o :=
  nameLoop_describes (.inl rfl) (le_refl _) (by simp)

/-- The loop ends where the name does. -/
lemma endsAt_iff : EndsAt m len o p ↔
    o ≠ 0 ∧ ∃ tmp, (nameLoopAt o len).eval m = .terminator p tmp := by
  have hloop := nameLoopAt_describes m len o
  constructor
  · rintro ⟨⟨hstart, hlabels, hlt⟩, hzero⟩
    refine ⟨hstart, ?_⟩
    cases hr : (nameLoopAt o len).eval m with
    | invalid =>
        rw [hr] at hloop
        exact absurd (.inl hzero) (hloop p hlabels hlt)
    | terminator q tmp =>
        rw [hr] at hloop
        rw [labels_end_unique hlabels hloop.1 (.inl hzero) (.inl hloop.2.2.1)]
        exact ⟨tmp, rfl⟩
    | pointer q tmp =>
        rw [hr] at hloop
        obtain rfl := labels_end_unique hlabels hloop.1 (.inl hzero) (.inr hloop.2.2.1)
        have hlt := lt_flag_of_zero hzero
        have hflag := hloop.2.2.1
        omega
  · rintro ⟨hstart, tmp, hr⟩
    rw [hr] at hloop
    exact ⟨⟨hstart, hloop.1, hloop.2.1⟩, hloop.2.2.1⟩

/-- It comes to a pointer where the name does. -/
lemma pointsAt_iff : PointsAt m len o p ↔
    o ≠ 0 ∧ ∃ tmp, (nameLoopAt o len).eval m = .pointer p tmp := by
  have hloop := nameLoopAt_describes m len o
  constructor
  · rintro ⟨⟨hstart, hlabels, hlt⟩, hflag⟩
    refine ⟨hstart, ?_⟩
    cases hr : (nameLoopAt o len).eval m with
    | invalid =>
        rw [hr] at hloop
        exact absurd (.inr hflag) (hloop p hlabels hlt)
    | terminator q tmp =>
        rw [hr] at hloop
        obtain rfl := labels_end_unique hlabels hloop.1 (.inr hflag) (.inl hloop.2.2.1)
        have hlt := lt_flag_of_zero hloop.2.2.1
        omega
    | pointer q tmp =>
        rw [hr] at hloop
        rw [labels_end_unique hlabels hloop.1 (.inr hflag) (.inr hloop.2.2.1)]
        exact ⟨tmp, rfl⟩
  · rintro ⟨hstart, tmp, hr⟩
    rw [hr] at hloop
    exact ⟨⟨hstart, hloop.1, hloop.2.1⟩, hloop.2.2.1⟩

/-- It gives up where there is no name. -/
lemma not_named_iff (ho : o ≠ 0) :
    ¬ Named m len o ↔ (nameLoopAt o len).eval m = .invalid := by
  have hloop := nameLoopAt_describes m len o
  constructor
  · intro hno
    cases hr : (nameLoopAt o len).eval m with
    | invalid => rfl
    | terminator q tmp => exact absurd (endsAt_iff.mpr ⟨ho, tmp, hr⟩).named hno
    | pointer q tmp => exact absurd (pointsAt_iff.mpr ⟨ho, tmp, hr⟩).named hno
  · rintro hr ⟨p, hto, hend⟩
    rw [hr] at hloop
    exact hloop p hto.labels hto.inside hend

/-- How much of the text the temporary holds. -/
lemma length_tmp {tmp : Bytes} (h : (nameLoopAt o len).eval m = .terminator p tmp ∨
    (nameLoopAt o len).eval m = .pointer p tmp) : tmp.length = (p - o - 1).toNat := by
  have hloop := nameLoopAt_describes m len o
  obtain hr | hr := h
  · rw [hr] at hloop
    exact hloop.2.2.2
  · rw [hr] at hloop
    exact hloop.2.2.2

end Snova
