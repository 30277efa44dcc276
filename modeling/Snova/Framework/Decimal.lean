import Mathlib.Logic.Function.Basic
import Snova.Framework.Bytes

/-!
# Decimal numbers

The digits of a number as bytes (`digitBytes`) and the number that a byte string of digits denotes
(`decimalValue`).  Printing a number and reading it again gives the number
(`decimalValue_digitBytes`); the other way around leading zeros are lost.
-/

namespace Snova

/-- A byte from `0` to `9`. -/
def isDigitByte (b : UInt8) : Bool := 48 ≤ b && b ≤ 57

/-- The decimal digits of a number, as bytes. -/
def digitBytes (n : ℕ) : Bytes := (Nat.toDigits 10 n).map fun c => UInt8.ofNat c.toNat

/-- The number that decimal digits denote. -/
def decimalValue (digits : Bytes) : ℕ := digits.foldl (fun acc b => 10 * acc + (b.toNat - 48)) 0

/-- A byte string of decimal digits. -/
structure IsDecimal (text : Bytes) : Prop where
  ne_nil : text ≠ []
  digits : ∀ b ∈ text, isDigitByte b = true

variable {n : ℕ} {b : UInt8} {text : Bytes}

lemma isDigitByte_iff : isDigitByte b = true ↔ 48 ≤ b.toNat ∧ b.toNat ≤ 57 := by
  rw [isDigitByte, Bool.and_eq_true, decide_eq_true_iff, decide_eq_true_iff, UInt8.le_iff_toNat_le,
    UInt8.le_iff_toNat_le]
  rfl

lemma decimalValue_append_singleton (digits : Bytes) (b : UInt8) :
    decimalValue (digits ++ [b]) = 10 * decimalValue digits + (b.toNat - 48) := by
  rw [decimalValue, List.foldl_append]
  rfl

/-- The digit of a number below 10. -/
lemma toNat_digitChar {d : ℕ} (h : d < 10) :
    (UInt8.ofNat (Nat.digitChar d).toNat).toNat = 48 + d := by
  have hall : ∀ d < 10, (UInt8.ofNat (Nat.digitChar d).toNat).toNat = 48 + d := by decide
  exact hall d h

/-- All digits but the last one are those of the tenth part. -/
lemma digitBytes_of_ge (h : 10 ≤ n) :
    digitBytes n = digitBytes (n / 10) ++ [UInt8.ofNat (Nat.digitChar (n % 10)).toNat] := by
  rw [digitBytes, Nat.toDigits_of_base_le (by decide) h, List.map_append]
  rfl

lemma decimalValue_digitBytes (n : ℕ) : decimalValue (digitBytes n) = n := by
  induction n using Nat.strong_induction_on with
  | _ n ih =>
      by_cases hlt : n < 10
      · have hdigit : digitBytes n = [UInt8.ofNat (Nat.digitChar n).toNat] := by
          rw [digitBytes, Nat.toDigits_of_lt_base hlt]
          rfl
        rw [hdigit]
        show 10 * 0 + ((UInt8.ofNat (Nat.digitChar n).toNat).toNat - 48) = n
        rw [toNat_digitChar hlt]
        omega
      · rw [digitBytes_of_ge (by omega), decimalValue_append_singleton, ih (n / 10) (by omega),
          toNat_digitChar (by omega)]
        omega

lemma digitBytes_injective : Function.Injective digitBytes :=
  Function.LeftInverse.injective decimalValue_digitBytes

lemma isDigitByte_of_mem (h : b ∈ digitBytes n) : isDigitByte b = true := by
  obtain ⟨c, hc, rfl⟩ := List.mem_map.mp h
  have hdigit : c.isDigit = true := Nat.isDigit_of_mem_toDigits (by decide) (by decide) hc
  obtain ⟨hge, hle⟩ := Char.isDigit_iff_toNat.mp hdigit
  rw [isDigitByte_iff, UInt8.toNat_ofNat']
  have hge : 48 ≤ c.toNat := hge
  have hle : c.toNat ≤ 57 := hle
  omega

lemma isDecimal_digitBytes (n : ℕ) : IsDecimal (digitBytes n) where
  ne_nil h := Nat.toDigits_ne_nil (List.map_eq_nil_iff.mp h)
  digits _ := isDigitByte_of_mem

end Snova
