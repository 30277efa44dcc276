import Mathlib.Tactic.Common
import Mathlib.Data.List.Basic
import Mathlib.Algebra.Order.Group.Nat

/-!
# Bytes in network order

Fixed-width big-endian encodings of naturals (`toBE`, `ofBE`) and their little-endian mirror
images, with the round trips.  The width is explicit and the encoding truncates, as a copy out
of a machine integer does, so the round trips are stated modulo the width.
-/

namespace Snova

/-- A byte string. -/
abbrev Bytes := List UInt8

/-! ## Little endian -/

/-- The `w` low bytes of `n`, least significant first. -/
def toLE : ℕ → ℕ → Bytes
  | 0, _ => []
  | w + 1, n => UInt8.ofNat n :: toLE w (n / 256)

/-- The number a little-endian byte string denotes. -/
def ofLE : Bytes → ℕ
  | [] => 0
  | b :: bs => b.toNat + 256 * ofLE bs

@[simp] lemma length_toLE (w n : ℕ) : (toLE w n).length = w := by
  induction w generalizing n with
  | zero => rfl
  | succ w ih => rw [toLE, List.length_cons, ih]

lemma ofLE_toLE (w n : ℕ) : ofLE (toLE w n) = n % 256 ^ w := by
  induction w generalizing n with
  | zero => simp [toLE, ofLE, Nat.mod_one]
  | succ w ih =>
      have hpow : 256 ^ (w + 1) = 256 * 256 ^ w := pow_succ' 256 w
      rw [toLE, ofLE, ih, UInt8.toNat_ofNat', hpow, Nat.mod_mul]

/-! ## Big endian -/

/-- The `w` low bytes of `n`, most significant first. -/
def toBE (w n : ℕ) : Bytes := (toLE w n).reverse

/-- The number a big-endian byte string denotes. -/
def ofBE (bs : Bytes) : ℕ := ofLE bs.reverse

@[simp] lemma length_toBE (w n : ℕ) : (toBE w n).length = w := by
  rw [toBE, List.length_reverse, length_toLE]

lemma ofBE_toBE (w n : ℕ) : ofBE (toBE w n) = n % 256 ^ w := by
  rw [ofBE, toBE, List.reverse_reverse, ofLE_toLE]

/-- Two numbers below the width's bound with the same encoding are equal. -/
lemma toBE_injective {w m n : ℕ} (hm : m < 256 ^ w) (hn : n < 256 ^ w)
    (h : toBE w m = toBE w n) : m = n := by
  have h' := congrArg ofBE h
  rwa [ofBE_toBE, ofBE_toBE, Nat.mod_eq_of_lt hm, Nat.mod_eq_of_lt hn] at h'

end Snova
