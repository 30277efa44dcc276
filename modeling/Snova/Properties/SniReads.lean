import Snova.Model.Sni
import Snova.Model.SniReads

/-!
# What the server name parser reads

For every byte string, `parse_sni` stays inside of it, and it sets a host name only with the code 0:
a slice of the TLS record (`parseSni_safe`).  Each level of the parser is given a part of the bytes
of the level above it, so the bounds of a level carry over to the ones below.
-/

namespace Snova

namespace SniReads

variable {m : ℕ → UInt8} {S : Set ℕ} {data dataLen lo hi : ℕ} {hostname : Bytes}

/-- The number of two bytes, the first of which is the higher one. -/
def short (m : ℕ → UInt8) (i : ℕ) : ℕ := (m i).toNat * 256 + (m (i + 1)).toNat

/-- The cells from `lo` to before `hi`. -/
def cells (lo hi : ℕ) : Set ℕ := {i | lo ≤ i ∧ i < hi}

lemma cells_subset {lo' hi' : ℕ} (hlo : lo' ≤ lo) (hhi : hi ≤ hi') :
    cells lo hi ⊆ cells lo' hi' := fun _ h => ⟨hlo.trans h.1, h.2.trans_le hhi⟩

/-- A result with code 0 has a host name from the cells between `lo` and `hi`; with any other code
the host name is the one before the call. -/
structure KeepsHost (m : ℕ → UInt8) (lo hi : ℕ) (hostname : Bytes) (result : ℤ × Bytes) :
    Prop where
  slice : result.1 = 0 →
    ∃ i n, lo ≤ i ∧ i + n ≤ hi ∧ result.2 = (List.range' i n).map m
  unchanged : result.1 ≠ 0 → result.2 = hostname

lemma KeepsHost.error {rc : ℤ} (h : rc ≠ 0) : KeepsHost m lo hi hostname (rc, hostname) :=
  ⟨fun hrc => absurd hrc h, fun _ => rfl⟩

lemma KeepsHost.mono {lo' hi' : ℕ} {result : ℤ × Bytes} (h : KeepsHost m lo hi hostname result)
    (hlo : lo' ≤ lo) (hhi : hi ≤ hi') : KeepsHost m lo' hi' hostname result := by
  refine ⟨fun hrc => ?_, h.unchanged⟩
  obtain ⟨i, n, hi, hn, hhost⟩ := h.slice hrc
  exact ⟨i, n, hlo.trans hi, hn.trans hhi, hhost⟩

/-- The reads are inside the cells from `lo` to before `hi`, and so is the host name. -/
abbrev Keeps (m : ℕ → UInt8) (lo hi : ℕ) (hostname : Bytes) (x : Reads ℕ UInt8 (ℤ × Bytes)) :
    Prop :=
  Reads.Ensures m (cells lo hi) x (KeepsHost m lo hi hostname)

lemma Keeps.mono {lo' hi' : ℕ} {x : Reads ℕ UInt8 (ℤ × Bytes)} (h : Keeps m lo hi hostname x)
    (hlo : lo' ≤ lo) (hhi : hi ≤ hi') : Keeps m lo' hi' hostname x :=
  Reads.Ensures.mono h (cells_subset hlo hhi) fun _ hkeeps => hkeeps.mono hlo hhi

lemma keeps_error {rc : ℤ} (h : rc ≠ 0) : Keeps m lo hi hostname (return (rc, hostname)) :=
  Reads.ensures_pure (KeepsHost.error h)

lemma yields_getAt {i : ℕ} (hlo : lo ≤ i) (hhi : i < hi) :
    Reads.Yields m (cells lo hi) (Reads.get i) (m i) := Reads.yields_get ⟨hlo, hhi⟩

lemma yields_readShort {i : ℕ} (hlo : lo ≤ i) (hhi : i + 1 < hi) :
    Reads.Yields m (cells lo hi) (readShort i) (short m i) := by
  apply (yields_getAt hlo (by omega)).bind
  apply (yields_getAt (by omega) hhi).bind
  exact Reads.yields_pure _ _ _

/-! ## The levels of the parser -/

lemma keeps_serverNameLoop (pos : ℕ) :
    Keeps m data (data + dataLen) hostname (serverNameLoop data dataLen hostname pos) := by
  induction hleft : dataLen - pos using Nat.strong_induction_on generalizing pos with
  | _ left ih =>
      rw [serverNameLoop]
      split
      · next hpos =>
          apply (yields_readShort (by omega) (by omega)).ensures_bind
          split
          · exact keeps_error (by decide)
          · next hlen =>
              apply (yields_getAt (by omega) (by omega)).ensures_bind
              split
              · apply (Reads.yields_getMany fun i hi => ?_).ensures_bind
                · refine Reads.ensures_pure ⟨fun _ => ?_, fun h => absurd rfl h⟩
                  exact ⟨data + pos + 3, short m (data + pos + 1), by omega, by omega, rfl⟩
                · obtain ⟨hge, hlt⟩ := List.mem_range'_1.mp hi
                  exact ⟨by omega, by omega⟩
              · exact ih _ (by omega) _ rfl
      · split
        · exact keeps_error (by decide)
        · exact keeps_error (by decide)

lemma yields_isServerName {i : ℕ} (hlo : lo ≤ i) (hhi : i + 1 < hi) :
    Reads.Yields m (cells lo hi) (isServerName i) (decide (m i = 0 ∧ m (i + 1) = 0)) := by
  apply (yields_getAt hlo (by omega)).bind
  split
  · next hne =>
      rw [decide_eq_false fun h => hne h.1]
      exact Reads.yields_pure _ _ _
  · next heq =>
      apply (yields_getAt (by omega) hhi).bind
      rw [decide_eq_decide.mpr (and_iff_right (not_not.mp heq))]
      exact Reads.yields_pure _ _ _

lemma keeps_extensionLoop (pos : ℕ) :
    Keeps m data (data + dataLen) hostname (extensionLoop data dataLen hostname pos) := by
  induction hleft : dataLen - pos using Nat.strong_induction_on generalizing pos with
  | _ left ih =>
      rw [extensionLoop]
      split
      · next hpos =>
          apply (yields_readShort (by omega) (by omega)).ensures_bind
          apply (yields_isServerName (by omega) (by omega)).ensures_bind
          split
          · split
            · exact keeps_error (by decide)
            · next hlen => exact (keeps_serverNameLoop 2).mono (by omega) (by omega)
          · exact ih _ (by omega) _ rfl
      · split
        · exact keeps_error (by decide)
        · exact keeps_error (by decide)

lemma keeps_parseHandshake {major minor : UInt8} (pos : ℕ) :
    Keeps m (data + pos) (data + dataLen) hostname
      (parseHandshake data dataLen major minor hostname pos) := by
  rw [parseHandshake]
  split
  · exact keeps_error (by decide)
  apply (yields_getAt (by omega) (by omega)).ensures_bind
  split
  · exact keeps_error (by decide)
  dsimp only
  split
  · exact keeps_error (by decide)
  -- the session id
  apply (yields_getAt (by omega) (by omega)).ensures_bind
  split
  · exact keeps_error (by decide)
  -- the cipher suites
  apply (yields_readShort (by omega) (by omega)).ensures_bind
  split
  · exact keeps_error (by decide)
  -- the compression methods
  apply (yields_getAt (by omega) (by omega)).ensures_bind
  split
  · exact keeps_error (by decide)
  split
  · exact keeps_error (by decide)
  -- the extensions
  apply (yields_readShort (by omega) (by omega)).ensures_bind
  split
  · exact keeps_error (by decide)
  · exact (keeps_extensionLoop 0).mono (by omega) (by omega)

lemma yields_isSsl2Hello (h : data + 2 < hi) :
    Reads.Yields m (cells data hi) (isSsl2Hello data)
      (decide (¬ m data < 128 ∧ m (data + 2) = 1)) := by
  apply (yields_getAt le_rfl (by omega)).bind
  split
  · next hlt =>
      rw [decide_eq_false fun h => h.1 hlt]
      exact Reads.yields_pure _ _ _
  · next hge =>
      apply (yields_getAt (by omega) h).bind
      rw [decide_eq_decide.mpr (and_iff_right hge)]
      exact Reads.yields_pure _ _ _

/-- Where the TLS record at `data` ends, or the data if this is before. -/
def recordEnd (m : ℕ → UInt8) (data dataLen : ℕ) : ℕ :=
  data + min dataLen (short m (data + 3) + 5)

/-- **The parser stays inside its data.**  For every memory and every length of the data in it, the
parser reads the data only.  With the code 0 the host name is a slice of the TLS record, and with
any other code it is left as it was. -/
theorem parseSni_safe (m : ℕ → UInt8) (data dataLen : ℕ) (hostname : Bytes) :
    Reads.ReadsIn m (cells data (data + dataLen)) (parseSni data dataLen hostname) ∧
      KeepsHost m (data + 5) (recordEnd m data dataLen) hostname
        ((parseSni data dataLen hostname).eval m) := by
  have hsafe : Reads.Ensures m (cells data (data + dataLen)) (parseSni data dataLen hostname)
      (KeepsHost m (data + 5) (recordEnd m data dataLen) hostname) := by
    rw [parseSni, parseTlsHeader]
    split
    · exact Reads.ensures_pure (KeepsHost.error (by decide))
    apply (yields_isSsl2Hello (by omega)).ensures_bind
    split
    · exact Reads.ensures_pure (KeepsHost.error (by decide))
    apply (yields_getAt le_rfl (by omega)).ensures_bind
    split
    · exact Reads.ensures_pure (KeepsHost.error (by decide))
    apply (yields_getAt (by omega) (by omega)).ensures_bind
    apply (yields_getAt (by omega) (by omega)).ensures_bind
    split
    · exact Reads.ensures_pure (KeepsHost.error (by decide))
    apply (yields_readShort (by omega) (by omega)).ensures_bind
    dsimp only
    split
    · exact Reads.ensures_pure (KeepsHost.error (by decide))
    · apply Reads.Ensures.mono (keeps_parseHandshake 5) _ fun _ hkeeps => hkeeps
      exact cells_subset (by omega) (by omega)
  exact ⟨hsafe.readsIn, hsafe.holds⟩

/-! ## The parser of a list -/

/-- The bytes in the `n` cells from `data` on. -/
def bytesAt (m : ℕ → UInt8) (data n : ℕ) : Bytes := (List.range' data n).map m

/-- The code and the host name of a call. -/
def resultOf (hostname : Bytes) : Except ℤ Bytes → ℤ × Bytes
  | .error rc => (rc, hostname)
  | .ok name => (0, name)

@[simp] lemma length_bytesAt (m : ℕ → UInt8) (data n : ℕ) : (bytesAt m data n).length = n := by
  rw [bytesAt, List.length_map, List.length_range']

lemma slice_bytesAt {n i len : ℕ} (h : i + len ≤ n) :
    ((bytesAt m data n).drop i).take len = bytesAt m (data + i) len := by
  apply List.ext_getElem
  · rw [List.length_take, List.length_drop, length_bytesAt, length_bytesAt]
    omega
  · intro k _ _
    simp [bytesAt, Nat.add_assoc]

lemma byteAt_bytesAt {n i : ℕ} (h : i < n) :
    byteAt (bytesAt m data n) i = (m (data + i)).toNat := by
  simp [byteAt, bytesAt, h]

lemma shortAt_bytesAt {n i : ℕ} (h : i + 1 < n) :
    shortAt (bytesAt m data n) i = short m (data + i) := by
  rw [shortAt, byteAt_bytesAt (by omega), byteAt_bytesAt h]
  rfl

@[simp] lemma eval_readShort (m : ℕ → UInt8) (i : ℕ) : (readShort i).eval m = short m i :=
  (yields_readShort (Nat.zero_le i) (Nat.lt_succ_self (i + 1))).eval_eq

@[simp] lemma eval_isServerName (m : ℕ → UInt8) (i : ℕ) :
    (isServerName i).eval m = decide (m i = 0 ∧ m (i + 1) = 0) :=
  (yields_isServerName (Nat.zero_le i) (Nat.lt_succ_self (i + 1))).eval_eq

@[simp] lemma eval_isSsl2Hello (m : ℕ → UInt8) (data : ℕ) :
    (isSsl2Hello data).eval m = decide (¬ m data < 128 ∧ m (data + 2) = 1) :=
  (yields_isSsl2Hello (Nat.lt_succ_self (data + 2))).eval_eq

/-- A round of the loop over server names. -/
lemma parseServerNames_of_lt {skip : ℕ} {l : Bytes} (h : skip + 3 < l.length) :
    parseServerNames skip l =
      if l.length < skip + 3 + shortAt l (skip + 1) then .error (-5)
      else if byteAt l skip = 0 then .ok ((l.drop (skip + 3)).take (shortAt l (skip + 1)))
      else parseServerNames (skip + (3 + shortAt l (skip + 1))) l := by
  induction skip generalizing l with
  | zero =>
      obtain ⟨nameType, hi, lo, next, rest, rfl⟩ :
          ∃ nameType hi lo next rest, l = nameType :: hi :: lo :: next :: rest := by
        match l, h with
        | nameType :: hi :: lo :: next :: rest, _ => exact ⟨nameType, hi, lo, next, rest, rfl⟩
      have hshort : shortAt (nameType :: hi :: lo :: next :: rest) (0 + 1)
          = hi.toNat * 256 + lo.toNat := rfl
      have hskip : ∀ len, parseServerNames (0 + (3 + len)) (nameType :: hi :: lo :: next :: rest)
          = parseServerNames len (next :: rest) := fun len => by
        rw [Nat.zero_add, Nat.add_comm 3 len]
        rfl
      have htype : byteAt (nameType :: hi :: lo :: next :: rest) 0 = 0 ↔ nameType = 0 :=
        UInt8.toNat_inj (b := 0)
      rw [parseServerNames, hshort, hskip, if_congr htype rfl rfl]
      apply if_congr _ rfl rfl
      simp only [List.length_cons]
      omega
  | succ skip ih =>
      cases l with
      | nil => exact absurd h (Nat.not_lt_zero _)
      | cons b l =>
          have hlen : skip + 3 < l.length := by
            rw [List.length_cons] at h
            omega
          have hskip : ∀ len, parseServerNames (skip + 1 + (3 + len)) (b :: l)
              = parseServerNames (skip + (3 + len)) l := fun len => by
            rw [Nat.add_right_comm]
            rfl
          rw [parseServerNames, ih hlen, hskip]
          apply if_congr _ rfl rfl
          rw [List.length_cons]
          show _ ↔ l.length + 1 < skip + 1 + 3 + shortAt l (skip + 1)
          omega

lemma parseServerNames_of_le {skip : ℕ} {l : Bytes} (h : l.length ≤ skip + 3) :
    parseServerNames skip l = .error (if skip ≠ l.length then -5 else -2) := by
  induction l generalizing skip with
  | nil =>
      cases skip with
      | zero => rfl
      | succ skip => rfl
  | cons b l ih =>
      cases skip with
      | zero =>
          match l, h with
          | [], _ => rfl
          | [_], _ => rfl
          | [_, _], _ => rfl
      | succ skip =>
          rw [parseServerNames, ih (by simpa using h)]
          simp

lemma eval_serverNameLoop (m : ℕ → UInt8) (data dataLen : ℕ) (hostname : Bytes) (pos : ℕ) :
    (serverNameLoop data dataLen hostname pos).eval m =
      resultOf hostname (parseServerNames pos (bytesAt m data dataLen)) := by
  induction hleft : dataLen - pos using Nat.strong_induction_on generalizing pos with
  | _ left ih =>
      rw [serverNameLoop]
      split
      · next hpos =>
          rw [parseServerNames_of_lt (by rwa [length_bytesAt]), length_bytesAt,
            byteAt_bytesAt (by omega), shortAt_bytesAt (by omega), ← Nat.add_assoc,
            Reads.eval_bind, eval_readShort]
          split
          · rfl
          · next hlen =>
              rw [Reads.eval_bind, Reads.eval_get, slice_bytesAt (by omega)]
              have hzero : (m (data + pos)).toNat = 0 ↔ m (data + pos) = 0 :=
                UInt8.toNat_inj (b := 0)
              rw [if_congr hzero rfl rfl]
              split
              · rw [Reads.eval_bind, Reads.eval_getMany]
                rfl
              · exact ih _ (by omega) _ rfl
      · next hpos =>
          rw [parseServerNames_of_le (by rw [length_bytesAt]; omega), length_bytesAt]
          split
          · rfl
          · rfl

/-- A round of the loop over extensions. -/
lemma parseExtensions_of_le {skip : ℕ} {l : Bytes} (h : skip + 4 ≤ l.length) :
    Snova.parseExtensions skip l =
      if byteAt l skip = 0 ∧ byteAt l (skip + 1) = 0 then
        if l.length < skip + 4 + shortAt l (skip + 2) then .error (-5)
        else Snova.parseServerNameExtension ((l.drop (skip + 4)).take (shortAt l (skip + 2)))
      else Snova.parseExtensions (skip + (4 + shortAt l (skip + 2))) l := by
  induction skip generalizing l with
  | zero =>
      obtain ⟨type₁, type₀, hi, lo, rest, rfl⟩ :
          ∃ type₁ type₀ hi lo rest, l = type₁ :: type₀ :: hi :: lo :: rest := by
        match l, h with
        | type₁ :: type₀ :: hi :: lo :: rest, _ => exact ⟨type₁, type₀, hi, lo, rest, rfl⟩
      have hshort : shortAt (type₁ :: type₀ :: hi :: lo :: rest) (0 + 2)
          = hi.toNat * 256 + lo.toNat := rfl
      have hskip : ∀ len, Snova.parseExtensions (0 + (4 + len)) (type₁ :: type₀ :: hi :: lo :: rest)
          = Snova.parseExtensions len rest := fun len => by
        rw [Nat.zero_add, Nat.add_comm 4 len]
        rfl
      have htype : byteAt (type₁ :: type₀ :: hi :: lo :: rest) 0 = 0 ∧
          byteAt (type₁ :: type₀ :: hi :: lo :: rest) (0 + 1) = 0 ↔ type₁ = 0 ∧ type₀ = 0 :=
        and_congr (UInt8.toNat_inj (b := 0)) (UInt8.toNat_inj (b := 0))
      rw [Snova.parseExtensions, hshort, hskip, if_congr htype rfl rfl]
      apply if_congr Iff.rfl _ rfl
      apply if_congr _ rfl rfl
      simp only [List.length_cons]
      omega
  | succ skip ih =>
      cases l with
      | nil => exact absurd h (Nat.not_succ_le_zero _)
      | cons b l =>
          have hlen : skip + 4 ≤ l.length := by
            rw [List.length_cons] at h
            omega
          have hskip : ∀ len, Snova.parseExtensions (skip + 1 + (4 + len)) (b :: l)
              = Snova.parseExtensions (skip + (4 + len)) l := fun len => by
            rw [Nat.add_right_comm]
            rfl
          rw [Snova.parseExtensions, ih hlen, hskip]
          apply if_congr Iff.rfl _ rfl
          apply if_congr _ rfl rfl
          rw [List.length_cons]
          show _ ↔ l.length + 1 < skip + 1 + 4 + shortAt l (skip + 2)
          omega

lemma parseExtensions_of_lt {skip : ℕ} {l : Bytes} (h : l.length < skip + 4) :
    Snova.parseExtensions skip l = .error (if skip ≠ l.length then -5 else -2) := by
  induction l generalizing skip with
  | nil =>
      cases skip with
      | zero => rfl
      | succ skip => rfl
  | cons b l ih =>
      cases skip with
      | zero =>
          match l, h with
          | [], _ => rfl
          | [_], _ => rfl
          | [_, _], _ => rfl
      | succ skip =>
          rw [Snova.parseExtensions, ih (by simpa using h)]
          simp

lemma eval_extensionLoop (m : ℕ → UInt8) (data dataLen : ℕ) (hostname : Bytes) (pos : ℕ) :
    (extensionLoop data dataLen hostname pos).eval m =
      resultOf hostname (Snova.parseExtensions pos (bytesAt m data dataLen)) := by
  induction hleft : dataLen - pos using Nat.strong_induction_on generalizing pos with
  | _ left ih =>
      rw [extensionLoop]
      split
      · next hpos =>
          rw [parseExtensions_of_le (by rwa [length_bytesAt]), length_bytesAt,
            byteAt_bytesAt (by omega), byteAt_bytesAt (by omega), shortAt_bytesAt (by omega),
            ← Nat.add_assoc, ← Nat.add_assoc, Reads.eval_bind, eval_readShort, Reads.eval_bind,
            eval_isServerName]
          have hzero : (m (data + pos)).toNat = 0 ∧ (m (data + pos + 1)).toNat = 0 ↔
              decide (m (data + pos) = 0 ∧ m (data + pos + 1) = 0) = true := by
            rw [decide_eq_true_iff]
            exact and_congr (UInt8.toNat_inj (b := 0)) (UInt8.toNat_inj (b := 0))
          rw [if_congr hzero rfl rfl]
          split
          · split
            · rfl
            · next hlen =>
                rw [slice_bytesAt (by omega), ← Nat.add_assoc]
                exact eval_serverNameLoop m _ _ hostname 2
          · exact ih _ (by omega) _ rfl
      · next hpos =>
          rw [parseExtensions_of_lt (by rw [length_bytesAt]; omega), length_bytesAt]
          split
          · rfl
          · rfl

/-- Both parsers fail under the same condition, or go on. -/
lemma eval_guard {c c' : Prop} [Decidable c] [Decidable c'] {rc : ℤ}
    {x : Reads ℕ UInt8 (ℤ × Bytes)} {y : Except ℤ Bytes} (hc : c ↔ c')
    (h : ¬c → x.eval m = resultOf hostname y) :
    (if c then return (rc, hostname) else x).eval m =
      resultOf hostname (if c' then .error rc else y) := by
  rw [if_congr hc rfl rfl]
  split
  · rfl
  · next hnot => exact h (hc.not.mpr hnot)

/-- **The parser that reads by position is the one on a list of bytes.** -/
lemma eval_parseSni (m : ℕ → UInt8) (data dataLen : ℕ) (hostname : Bytes) :
    (parseSni data dataLen hostname).eval m =
      resultOf hostname (Snova.parseSni (bytesAt m data dataLen)) := by
  have hbyte : ∀ i < dataLen, byteAt (bytesAt m data dataLen) i = (m (data + i)).toNat :=
    fun i => byteAt_bytesAt
  have hshort : ∀ i, i + 1 < dataLen → shortAt (bytesAt m data dataLen) i = short m (data + i) :=
    fun i => shortAt_bytesAt
  rw [parseSni, Snova.parseSni, parseTlsHeader, Snova.parseTlsHeader, length_bytesAt]
  refine eval_guard Iff.rfl fun hlen => ?_
  rw [Reads.eval_bind, eval_isSsl2Hello, hbyte 0 (by omega), hbyte 1 (by omega),
    hbyte 2 (by omega), hshort 3 (by omega)]
  refine eval_guard ?_ fun _ => ?_
  · rw [decide_eq_true_iff, UInt8.not_lt]
    exact and_congr UInt8.le_iff_toNat_le (UInt8.toNat_inj (b := 1)).symm
  rw [Reads.eval_bind, Reads.eval_get]
  refine eval_guard (UInt8.toNat_inj (b := 22)).symm.not fun _ => ?_
  rw [Reads.eval_bind, Reads.eval_get, Reads.eval_bind, Reads.eval_get]
  refine eval_guard UInt8.lt_iff_toNat_lt fun _ => ?_
  rw [Reads.eval_bind, eval_readShort]
  refine eval_guard Iff.rfl fun hrecord => ?_
  rw [parseHandshake]
  have hle : min dataLen (short m (data + 3) + 5) ≤ dataLen := Nat.min_le_left _ _
  generalize min dataLen (short m (data + 3) + 5) = recordLen at hle ⊢
  refine eval_guard Iff.rfl fun hpos => ?_
  rw [Reads.eval_bind, Reads.eval_get, hbyte 5 (by omega)]
  refine eval_guard (UInt8.toNat_inj (b := 1)).symm.not fun _ => ?_
  refine eval_guard Iff.rfl fun hpos => ?_
  rw [Reads.eval_bind, Reads.eval_get, hbyte (5 + 38) (by omega)]
  generalize 5 + 38 + (1 + (m (data + (5 + 38))).toNat) = cipherSuites
  refine eval_guard Iff.rfl fun hpos => ?_
  rw [Reads.eval_bind, eval_readShort, hshort cipherSuites (by omega)]
  generalize cipherSuites + (2 + short m (data + cipherSuites)) = compression
  refine eval_guard Iff.rfl fun hpos => ?_
  rw [Reads.eval_bind, Reads.eval_get, hbyte compression (by omega)]
  generalize compression + (1 + (m (data + compression)).toNat) = extensions
  refine eval_guard (and_congr_right fun _ =>
    and_congr (UInt8.toNat_inj (b := 3)).symm (UInt8.toNat_inj (b := 0)).symm) fun _ => ?_
  refine eval_guard Iff.rfl fun hpos => ?_
  rw [Reads.eval_bind, eval_readShort, hshort extensions (by omega)]
  refine eval_guard Iff.rfl fun hpos => ?_
  rw [slice_bytesAt (by omega)]
  exact eval_extensionLoop m _ _ hostname 0

end SniReads

end Snova
