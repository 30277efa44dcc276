import Mathlib.Data.List.GetD
import Snova.Model.PrivateAddress

/-!
# Which addresses are private

`is_private_address` should find the loopback addresses and the hosts of three networks.  It does,
but for every other IPv4 address its loop leaves the array, as its bound is a number of bytes
(`isPrivateAddress_iff`).
-/

namespace Snova

variable {m : ℕ → AddressV4Range} {addr : AddressV4}

/-- A host of a network: an address between the first one and the last one. -/
def IsHostOf (network size : ℕ) (addr : AddressV4) : Prop :=
  network < addr.val ∧ addr.val < network + size - 1

/-- The addresses that should be found. -/
inductive IsPrivate : IpAddress → Prop
  | loopback {addr : AddressV4} (h : addr.val / 2 ^ 24 = 127) : IsPrivate (.v4 addr)
  | classA {addr : AddressV4} (h : IsHostOf (10 * 2 ^ 24) (2 ^ 24) addr) : IsPrivate (.v4 addr)
  | classB {addr : AddressV4} (h : IsHostOf (172 * 2 ^ 24 + 16 * 2 ^ 16) (2 ^ 20) addr) :
      IsPrivate (.v4 addr)
  | classC {addr : AddressV4} (h : IsHostOf (192 * 2 ^ 24 + 168 * 2 ^ 16) (2 ^ 16) addr) :
      IsPrivate (.v4 addr)

/-- `g_private_networks` is at the beginning of the memory. -/
def HoldsNetworks (m : ℕ → AddressV4Range) : Prop :=
  ∀ i : ℕ, i < gPrivateNetworks.length → gPrivateNetworks[i]? = some (m i)

/-- The positions of `g_private_networks`. -/
def networkCells : Set ℕ := {i | i < 3}

lemma contains_hostsOf {network size : ℕ} (hsize : 1 < size) (hle : network + size ≤ 2 ^ 32) :
    (hostsOf network size).contains addr = true ↔ IsHostOf network size addr := by
  rw [AddressV4Range.contains, Bool.and_eq_true, decide_eq_true_iff, decide_eq_true_iff,
    Fin.le_def, Fin.lt_def]
  simp only [hostsOf, IsHostOf, Fin.val_ofNat]
  omega

/-! ## The loop -/

lemma eval_privateNetworksLoop (m : ℕ → AddressV4Range) (addr : AddressV4) (left i : ℕ) :
    (privateNetworksLoop addr left i).eval m = true ↔
      ∃ k < left, (m (i + k)).contains addr = true := by
  induction left generalizing i with
  | zero => simp [privateNetworksLoop]
  | succ left ih =>
      rw [privateNetworksLoop, Reads.eval_bind, Reads.eval_get]
      constructor
      · intro h
        split at h
        · next hfound => exact ⟨0, Nat.succ_pos left, hfound⟩
        · obtain ⟨k, hk, hfound⟩ := (ih (i + 1)).mp h
          refine ⟨k + 1, Nat.succ_lt_succ hk, ?_⟩
          rwa [← Nat.add_assoc, Nat.add_right_comm]
      · rintro ⟨k, hk, hfound⟩
        split
        · rfl
        · next hnot =>
            cases k with
            | zero => exact absurd hfound hnot
            | succ k =>
                refine (ih (i + 1)).mpr ⟨k, Nat.lt_of_succ_lt_succ hk, ?_⟩
                rwa [Nat.add_right_comm, Nat.add_assoc]

/-- A position is read if the address is in none of the ranges before it. -/
lemma readsIn_privateNetworksLoop (m : ℕ → AddressV4Range) (S : Set ℕ) (addr : AddressV4)
    (left i : ℕ) :
    Reads.ReadsIn m S (privateNetworksLoop addr left i) ↔
      ∀ k < left, (∀ k' < k, (m (i + k')).contains addr = false) → i + k ∈ S := by
  induction left generalizing i with
  | zero => simp [privateNetworksLoop]
  | succ left ih =>
      rw [privateNetworksLoop, Reads.readsIn_bind, Reads.readsIn_get, Reads.eval_get]
      cases hcontains : (m i).contains addr with
      | true =>
          rw [if_pos rfl, and_iff_left (Reads.readsIn_pure _ _ _)]
          constructor
          · intro hi k _ hnone
            cases k with
            | zero => exact hi
            | succ k =>
                have hfirst := hnone 0 (Nat.succ_pos k)
                rw [Nat.add_zero, hcontains] at hfirst
                cases hfirst
          · exact fun h => h 0 (Nat.succ_pos left) fun k' hk' => absurd hk' (Nat.not_lt_zero k')
      | false =>
          rw [if_neg Bool.false_ne_true, ih (i + 1)]
          constructor
          · rintro ⟨hi, hrest⟩ k hk hnone
            cases k with
            | zero => exact hi
            | succ k =>
                have hmem := hrest k (Nat.lt_of_succ_lt_succ hk) fun k' hk' => by
                  rw [Nat.add_right_comm, Nat.add_assoc]
                  exact hnone (k' + 1) (Nat.succ_lt_succ hk')
                rwa [Nat.add_right_comm, Nat.add_assoc] at hmem
          · intro h
            refine ⟨h 0 (Nat.succ_pos left) fun k' hk' => absurd hk' (Nat.not_lt_zero k'), ?_⟩
            intro k hk hnone
            have hmem := h (k + 1) (Nat.succ_lt_succ hk) fun k' hk' => by
              cases k' with
              | zero => exact hcontains
              | succ k' =>
                  have hk := hnone k' (Nat.lt_of_succ_lt_succ hk')
                  rwa [Nat.add_right_comm, Nat.add_assoc] at hk
            rwa [Nat.add_right_comm, Nat.add_assoc]

/-! ## The addresses -/

/-- What is found in the array is what should be found, but for the loopback addresses. -/
lemma exists_contains_iff (hm : HoldsNetworks m) :
    (∃ k < 3, (m k).contains addr = true) ↔
      IsHostOf (10 * 2 ^ 24) (2 ^ 24) addr ∨
        IsHostOf (172 * 2 ^ 24 + 16 * 2 ^ 16) (2 ^ 20) addr ∨
        IsHostOf (192 * 2 ^ 24 + 168 * 2 ^ 16) (2 ^ 16) addr := by
  have h₀ : m 0 = hostsOf (10 * 2 ^ 24) (2 ^ 24) := (Option.some.inj (hm 0 (by decide))).symm
  have h₁ : m 1 = hostsOf (172 * 2 ^ 24 + 16 * 2 ^ 16) (2 ^ 20) :=
    (Option.some.inj (hm 1 (by decide))).symm
  have h₂ : m 2 = hostsOf (192 * 2 ^ 24 + 168 * 2 ^ 16) (2 ^ 16) :=
    (Option.some.inj (hm 2 (by decide))).symm
  rw [← contains_hostsOf (by decide) (by decide), ← contains_hostsOf (by decide) (by decide),
    ← contains_hostsOf (by decide) (by decide), ← h₀, ← h₁, ← h₂]
  constructor
  · rintro ⟨k, hk, hfound⟩
    obtain rfl | rfl | rfl : k = 0 ∨ k = 1 ∨ k = 2 := by omega
    · exact .inl hfound
    · exact .inr (.inl hfound)
    · exact .inr (.inr hfound)
  · rintro (hfound | hfound | hfound)
    · exact ⟨0, by decide, hfound⟩
    · exact ⟨1, by decide, hfound⟩
    · exact ⟨2, by decide, hfound⟩

lemma isPrivate_v4_iff : IsPrivate (.v4 addr) ↔ isLoopback addr = true ∨
    IsHostOf (10 * 2 ^ 24) (2 ^ 24) addr ∨
      IsHostOf (172 * 2 ^ 24 + 16 * 2 ^ 16) (2 ^ 20) addr ∨
      IsHostOf (192 * 2 ^ 24 + 168 * 2 ^ 16) (2 ^ 16) addr := by
  rw [isLoopback, decide_eq_true_iff]
  constructor
  · intro h
    cases h with
    | loopback h => exact .inl h
    | classA h => exact .inr (.inl h)
    | classB h => exact .inr (.inr (.inl h))
    | classC h => exact .inr (.inr (.inr h))
  · rintro (h | h | h | h)
    · exact .loopback h
    · exact .classA h
    · exact .classB h
    · exact .classC h

/-- **When `is_private_address` is right.**  For every IP address, every size of the elements of
`g_private_networks` that is more than one byte, and whatever stands behind the array: the positions
0, 1 and 2 alone are read and the result is `true` exactly for the private addresses, if and only if
the address is private or no IPv4 address. -/
theorem isPrivateAddress_iff (rangeSize : ℕ) (hsize : 1 < rangeSize) (m : ℕ → AddressV4Range)
    (hm : HoldsNetworks m) (addr : IpAddress) :
    (Reads.ReadsIn m networkCells (isPrivateAddress rangeSize addr) ∧
        ((isPrivateAddress rangeSize addr).eval m = true ↔ IsPrivate addr)) ↔
      IsPrivate addr ∨ ∃ bytes, addr = .v6 bytes := by
  cases addr with
  | v6 bytes =>
      refine iff_of_true ⟨Reads.readsIn_pure _ _ _, iff_of_false Bool.false_ne_true ?_⟩
        (.inr ⟨bytes, rfl⟩)
      intro h
      cases h
  | v4 addr =>
      have hv6 : ¬ ∃ bytes, IpAddress.v4 addr = .v6 bytes := by
        rintro ⟨bytes, h⟩
        cases h
      rw [or_iff_left hv6, isPrivateAddress, isPrivate_v4_iff, ← exists_contains_iff hm]
      cases hloop : isLoopback addr with
      | true => exact iff_of_true ⟨Reads.readsIn_pure _ _ _, by simp⟩ (.inl rfl)
      | false =>
          rw [if_neg Bool.false_ne_true, readsIn_privateNetworksLoop, eval_privateNetworksLoop,
            or_iff_right Bool.false_ne_true]
          simp only [Nat.zero_add]
          have hbound : 3 < gPrivateNetworks.length * rangeSize := by
            show 3 < 3 * rangeSize
            omega
          constructor
          · rintro ⟨hreads, -⟩
            by_contra hnone
            have hread := hreads 3 hbound fun k hk => by
              rw [← Bool.not_eq_true]
              exact fun hfound => hnone ⟨k, hk, hfound⟩
            exact absurd hread (Nat.lt_irrefl 3)
          · rintro ⟨k, hk, hfound⟩
            refine ⟨fun k' _ hnone => ?_, fun _ => ⟨k, hk, hfound⟩,
              fun _ => ⟨k, hk.trans hbound, hfound⟩⟩
            -- the loop gets no further than the range that has the address
            show k' < 3
            by_contra hle
            have hnot := hnone k (by omega)
            rw [hfound] at hnot
            cases hnot

/-- The array, and behind it ranges without addresses. -/
def networksMemory : ℕ → AddressV4Range := fun i => gPrivateNetworks.getD i ⟨0, 0⟩

lemma holdsNetworks_networksMemory : HoldsNetworks networksMemory := by
  intro i hi
  rw [networksMemory, List.getD_eq_getElem _ _ hi, List.getElem?_eq_getElem hi]

/-- `10.1.2.3` is found, with a size of 8 bytes. -/
theorem isPrivateAddress_ten :
    Reads.ReadsIn networksMemory networkCells (isPrivateAddress 8 (.v4 167838211)) ∧
      ((isPrivateAddress 8 (.v4 167838211)).eval networksMemory = true ↔
        IsPrivate (.v4 167838211)) :=
  (isPrivateAddress_iff 8 (by decide) networksMemory holdsNetworks_networksMemory
    (.v4 167838211)).mpr (.inl (.classA ⟨by decide, by decide⟩))

/-- For `8.8.8.8` position 3 is read, and all others up to 23. -/
theorem public_address_leaves_array :
    HoldsNetworks networksMemory ∧
      (isPrivateAddress 8 (.v4 134744072)).indices networksMemory = List.range 24 ∧
      ¬ Reads.ReadsIn networksMemory networkCells (isPrivateAddress 8 (.v4 134744072)) := by
  have hindices : (isPrivateAddress 8 (.v4 134744072)).indices networksMemory = List.range 24 := by
    decide +kernel
  refine ⟨holdsNetworks_networksMemory, hindices, fun h => ?_⟩
  have hthree := h 3 (by rw [hindices]; decide)
  exact absurd hthree (Nat.lt_irrefl 3)

end Snova
