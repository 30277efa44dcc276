import Snova.Properties.DnsName

/-!
# Names on the wire

RFC 1035 writes a name as labels, each behind a byte with its length, that end with a zero byte or
with a pointer to the place of the message where the name goes on.  `NameAt` is this format: the
labels of a name in groups, one for each pointer and one for the end, and the offsets of the
pointers.  The text of the name is all its labels joined with dots.

`dns_parse_name` joins each group and puts a dot wherever it follows a pointer, and it takes the
offset of a pointer from one byte.  So it finds the text if there is no pointer
(`parseName_uncompressed`), or if all pointers have offsets below 256 and no group is empty, and
under the first of these conditions the second is exact (`parseName_compressed_iff`).
-/

namespace Snova

variable {m : ℤ → UInt8} {len o p q : ℤ}

/-! ## The format -/

/-- The message has the bytes `bs` from `i` on. -/
def HoldsAt (m : ℤ → UInt8) (i : ℤ) (bs : Bytes) : Prop := (cellsFrom i bs.length).map m = bs

/-- Labels, encoded from `p` to `q`. -/
inductive LabelsAt (m : ℤ → UInt8) : ℤ → List Bytes → ℤ → Prop
  | nil (p : ℤ) : LabelsAt m p [] p
  | cons {p q : ℤ} {l : Bytes} {ls : List Bytes} (pos : 0 < l.length) (le : l.length ≤ 63)
      (size : (m p).toNat = l.length) (bytes : HoldsAt m (p + 1) l)
      (rest : LabelsAt m (p + 1 + l.length) ls q) : LabelsAt m p (l :: ls) q

/-- A name at `o` in a message of `len` bytes, the groups of its labels, the offsets of its
pointers, and the offset behind its encoding. -/
inductive NameAt (m : ℤ → UInt8) (len : ℤ) :
    ℤ → List (List Bytes) → List ℤ → ℤ → Prop
  | ends {o p : ℤ} {ls : List Bytes} (labels : LabelsAt m o ls p) (inside : p < len)
      (zero : m p = 0) : NameAt m len o [ls] [] (p + 1)
  | pointer {o p e : ℤ} {ls : List Bytes} {gs : List (List Bytes)} {ptrs : List ℤ}
      (labels : LabelsAt m o ls p) (inside : p + 1 < len) (flag : 192 ≤ (m p).toNat)
      (earlier : pointerOffset m p < p) (rest : NameAt m len (pointerOffset m p) gs ptrs e) :
      NameAt m len o (ls :: gs) (pointerOffset m p :: ptrs) (p + 2)

/-- Parts joined with dots. -/
def joinDots (ls : List Bytes) : Bytes := [(46 : UInt8)].intercalate ls

/-! ## Bytes and labels -/

lemma cellsFrom_succ (i : ℤ) (n : ℕ) : cellsFrom i (n + 1) = i :: cellsFrom (i + 1) n := by
  rw [cellsFrom, cellsFrom, List.range_succ_eq_map, List.map_cons, List.map_map]
  congr 1
  · exact add_zero i
  · apply List.map_congr_left
    intro k _
    simp only [Function.comp_apply, Nat.succ_eq_add_one]
    omega

lemma holdsAt_cons {i : ℤ} {b : UInt8} {bs : Bytes} :
    HoldsAt m i (b :: bs) ↔ m i = b ∧ HoldsAt m (i + 1) bs := by
  rw [HoldsAt, List.length_cons, cellsFrom_succ, List.map_cons, List.cons.injEq]
  rfl

lemma holdsAt_append {i : ℤ} {bs bs' : Bytes} :
    HoldsAt m i (bs ++ bs') ↔ HoldsAt m i bs ∧ HoldsAt m (i + bs.length) bs' := by
  induction bs generalizing i with
  | nil =>
      rw [List.nil_append, List.length_nil, Nat.cast_zero, add_zero]
      exact (and_iff_right rfl).symm
  | cons b bs ih =>
      rw [List.cons_append, holdsAt_cons, holdsAt_cons, ih, and_assoc, List.length_cons]
      have hoff : i + 1 + (bs.length : ℤ) = i + ((bs.length + 1 : ℕ) : ℤ) := by omega
      rw [hoff]

/-- The bytes that labels take. -/
lemma LabelsAt.offset_eq {ls : List Bytes} (h : LabelsAt m p ls q) :
    q = p + ((ls.map List.length).sum + ls.length : ℕ) := by
  induction h with
  | nil p => simp
  | cons pos le size bytes rest ih =>
      rw [ih, List.map_cons, List.sum_cons, List.length_cons]
      omega

/-- They are one more than the bytes of their text. -/
lemma LabelsAt.length_joinDots {ls : List Bytes} (h : LabelsAt m p ls q) (hne : ls ≠ []) :
    q = p + (joinDots ls).length + 1 := by
  have hpos := List.length_pos_iff.mpr hne
  have hlen : (joinDots ls).length = (ls.map List.length).sum + (ls.length - 1) :=
    length_intercalate 46 ls
  have hoff := h.offset_eq
  omega

lemma LabelsAt.le {ls : List Bytes} (h : LabelsAt m p ls q) : p ≤ q := by
  have hoff := h.offset_eq
  omega

lemma appendLabel_of_ne {tmp : Bytes} (h : tmp ≠ []) (l : Bytes) :
    appendLabel tmp l = tmp ++ 46 :: l := by
  rw [appendLabel, if_neg h, List.append_assoc]
  rfl

lemma foldl_appendLabel_of_ne {tmp : Bytes} (h : tmp ≠ []) (ls : List Bytes) :
    ls.foldl appendLabel tmp = joinDots (tmp :: ls) := by
  induction ls generalizing tmp with
  | nil => exact List.intercalate_singleton.symm
  | cons l ls ih =>
      rw [List.foldl_cons, appendLabel_of_ne h, ih (by simp)]
      unfold joinDots
      rw [List.intercalate_cons_cons]
      cases ls with
      | nil =>
          rw [List.intercalate_singleton, List.intercalate_singleton, List.append_assoc]
          rfl
      | cons l' ls =>
          rw [List.intercalate_cons_cons, List.intercalate_cons_cons]
          simp

/-- What the temporary holds behind some labels. -/
lemma LabelsAt.foldl_eq {ls : List Bytes} (h : LabelsAt m p ls q) :
    ls.foldl appendLabel [] = joinDots ls := by
  cases h with
  | nil p => rfl
  | @cons p q l ls pos le size bytes rest =>
      have hl : l ≠ [] := List.length_pos_iff.mp pos
      rw [List.foldl_cons]
      exact foldl_appendLabel_of_ne hl ls

lemma length_le_foldl (tmp : Bytes) (ls : List Bytes) :
    tmp.length ≤ (ls.foldl appendLabel tmp).length := by
  induction ls generalizing tmp with
  | nil => exact le_refl _
  | cons l ls ih =>
      refine le_trans ?_ (ih (appendLabel tmp l))
      unfold appendLabel
      split
      · simp
      · simp only [List.length_append]
        omega

/-! ## The loop on a name -/

/-- The loop copies the labels, as long as the text is not too long. -/
lemma nameLoop_labels {ls : List Bytes} (h : LabelsAt m p ls q) (hq : q < len) :
    ∀ (left : ℕ) (tmp : Bytes), (len - p).toNat ≤ left →
      (ls.foldl appendLabel tmp).length ≤ 253 →
      ∃ left', (len - q).toNat ≤ left' ∧ (nameLoop len left p tmp).eval m =
        (nameLoop len left' q (ls.foldl appendLabel tmp)).eval m := by
  induction h with
  | nil p => exact fun left tmp hleft _ => ⟨left, hleft, rfl⟩
  | @cons p q l ls pos le size bytes rest ih =>
      intro left tmp hleft hfits
      have hle := rest.le
      obtain ⟨left, rfl⟩ : ∃ n, left = n + 1 := ⟨left - 1, by omega⟩
      obtain ⟨left', hleft', heval⟩ := ih hq left (appendLabel tmp l) (by omega) hfits
      refine ⟨left', hleft', ?_⟩
      rw [List.foldl_cons, ← heval]
      have hlabel : tmp.length + l.length ≤ (appendLabel tmp l).length := by
        unfold appendLabel
        split
        · simp
        · simp only [List.length_append]
          omega
      have hmono := length_le_foldl (appendLabel tmp l) ls
      rw [List.foldl_cons] at hfits
      have hpointer : ¬ isPointer (m p) = true := by
        rw [isPointer_iff]
        omega
      rw [nameLoop, if_pos (by omega), Reads.eval_bind, Reads.eval_get]
      simp only [size]
      rw [if_neg hpointer, if_neg (by omega), if_neg (by omega),
        if_neg (by unfold maxStrLen; omega), Reads.eval_bind, Reads.eval_getMany]
      rw [show (cellsFrom (p + 1) l.length).map m = l from bytes]

lemma nameLoop_terminator {left : ℕ} {tmp : Bytes} (hleft : (len - p).toNat ≤ left)
    (hp : p < len) (hzero : m p = 0) :
    (nameLoop len left p tmp).eval m = .terminator p tmp := by
  obtain ⟨left, rfl⟩ : ∃ n, left = n + 1 := ⟨left - 1, by omega⟩
  have hpointer : ¬ isPointer (0 : UInt8) = true := by decide
  rw [nameLoop, if_pos hp, Reads.eval_bind, Reads.eval_get, hzero]
  simp only
  rw [if_neg hpointer, if_neg (by simpa using hp), if_pos (show UInt8.toNat 0 = 0 from rfl)]
  rfl

lemma nameLoop_at_pointer {left : ℕ} {tmp : Bytes} (hleft : (len - p).toNat ≤ left)
    (hp : p < len) (hflag : 192 ≤ (m p).toNat) :
    (nameLoop len left p tmp).eval m = .pointer p tmp := by
  obtain ⟨left, rfl⟩ : ∃ n, left = n + 1 := ⟨left - 1, by omega⟩
  rw [nameLoop, if_pos hp, Reads.eval_bind, Reads.eval_get]
  simp only
  rw [if_pos ((isPointer_iff _).mpr hflag)]
  rfl

/-- `name` behind the labels of a group: their text, if there are any. -/
lemma LabelsAt.assignName_eq {ls : List Bytes} (h : LabelsAt m p ls q) (name : Bytes) :
    assignName p q (joinDots ls) name = if ls = [] then name else joinDots ls := by
  unfold assignName
  by_cases hls : ls = []
  · have hoff := h.offset_eq
    rw [hls, List.map_nil, List.sum_nil, List.length_nil] at hoff
    rw [if_pos hls, if_neg (by omega)]
  · have hoff := h.length_joinDots hls
    rw [if_neg hls, if_pos (by omega)]
    apply List.take_of_length_le
    omega

/-- A group that ends the name. -/
lemma nameLoopAt_ends {ls : List Bytes} (labels : LabelsAt m o ls p) (inside : p < len)
    (zero : m p = 0) (hfits : (joinDots ls).length ≤ 253) :
    (nameLoopAt o len).eval m = .terminator p (joinDots ls) := by
  rw [← labels.foldl_eq] at hfits
  obtain ⟨left, hleft, heval⟩ := nameLoop_labels labels inside _ [] (le_refl _) hfits
  rw [nameLoopAt, heval, nameLoop_terminator hleft inside zero, labels.foldl_eq]

/-- A group that ends with a pointer. -/
lemma nameLoopAt_pointer {ls : List Bytes} (labels : LabelsAt m o ls p) (inside : p < len)
    (flag : 192 ≤ (m p).toNat) (hfits : (joinDots ls).length ≤ 253) :
    (nameLoopAt o len).eval m = .pointer p (joinDots ls) := by
  rw [← labels.foldl_eq] at hfits
  obtain ⟨left, hleft, heval⟩ := nameLoop_labels labels inside _ [] (le_refl _) hfits
  rw [nameLoopAt, heval, nameLoop_at_pointer hleft inside flag, labels.foldl_eq]

/-- A name without a pointer: its text, or the old `name` for the root. -/
lemma parseName_ends {ls : List Bytes} (labels : LabelsAt m o ls p) (inside : p < len)
    (zero : m p = 0) (ho : 0 < o) (hfits : (joinDots ls).length ≤ 253) (name : Bytes) (d : ℕ) :
    (dnsParseName (d + 1) o len name).eval m =
      some (0, if ls = [] then name else joinDots ls) := by
  have hle := labels.le
  rw [eval_dnsParseName_succ, if_neg (by omega), nameLoopAt_ends labels inside zero hfits]
  simp only
  rw [labels.assignName_eq]

lemma NameAt.ne_nil {gs : List (List Bytes)} {ptrs : List ℤ} {e : ℤ}
    (h : NameAt m len o gs ptrs e) : gs ≠ [] := by
  cases h with
  | ends labels inside zero => exact List.cons_ne_nil _ _
  | pointer labels inside flag earlier rest => exact List.cons_ne_nil _ _

/-- The text of a group, with nothing before it. -/
lemma ite_joinDots (ls : List Bytes) : (if ls = [] then [] else joinDots ls) = joinDots ls := by
  split
  · next h => rw [h]; rfl
  · rfl

/-- What `dns_parse_name` makes of a name whose pointers all have small offsets: the groups, each
joined, joined with each other. -/
lemma NameAt.returns {gs : List (List Bytes)} {ptrs : List ℤ} {e : ℤ}
    (h : NameAt m len o gs ptrs e) (ho : 0 < o) (hptrs : ∀ t ∈ ptrs, 0 < t ∧ t < 256)
    (hfits : ∀ g ∈ gs, (joinDots g).length ≤ 253) :
    Returns m (fun d => dnsParseName d o len []) (0, joinDots (gs.map joinDots)) := by
  induction h with
  | @ends o p ls labels inside zero =>
      have heval := parseName_ends labels inside zero ho (hfits ls List.mem_cons_self) [] 0
      rw [ite_joinDots] at heval
      have htext : joinDots ([ls].map joinDots) = joinDots ls := List.intercalate_singleton
      rw [htext]
      exact returns_of_eval heval
  | @pointer o p e ls gs ptrs labels inside flag earlier rest ih =>
      obtain ⟨hpos, hsmall⟩ := hptrs _ List.mem_cons_self
      obtain ⟨depth, hdepth⟩ := ih hpos (fun t ht => hptrs t (List.mem_cons_of_mem _ ht))
        (fun g hg => hfits g (List.mem_cons_of_mem _ hg))
      have hloop := nameLoopAt_pointer labels (show p < len by omega) flag
        (hfits ls List.mem_cons_self)
      have hoffset : ((m (p + 1)).toNat : ℤ) = pointerOffset m p := by
        unfold pointerOffset at hsmall ⊢
        omega
      have hle := labels.le
      have heval : (dnsParseName (depth + 1) o len []).eval m =
          some (0, joinDots ls ++ 46 :: joinDots (gs.map joinDots)) := by
        rw [eval_dnsParseName_succ, if_neg (by omega), hloop]
        simp only
        rw [hoffset, hdepth depth (le_refl depth), labels.assignName_eq, ite_joinDots,
          Option.map_some]
      have htext : joinDots ((ls :: gs).map joinDots) =
          joinDots ls ++ 46 :: joinDots (gs.map joinDots) := by
        rw [List.map_cons, joinDots, List.intercalate_cons_of_ne_nil (by simpa using rest.ne_nil),
          List.append_assoc]
        rfl
      rw [htext]
      exact returns_of_eval heval

/-! ## Names without pointers -/

/-- The encoding of labels. -/
def encodeLabels (ls : List Bytes) : Bytes := ls.flatMap fun l => UInt8.ofNat l.length :: l

/-- The uncompressed encoding of a name. -/
def encodeName (ls : List Bytes) : Bytes := encodeLabels ls ++ [0]

lemma labelsAt_of_holdsAt {ls : List Bytes} (hls : ∀ l ∈ ls, 0 < l.length ∧ l.length ≤ 63)
    (h : HoldsAt m o (encodeLabels ls)) : LabelsAt m o ls (o + (encodeLabels ls).length) := by
  induction ls generalizing o with
  | nil =>
      rw [show (encodeLabels []).length = 0 from rfl, Nat.cast_zero, add_zero]
      exact .nil o
  | cons l ls ih =>
      obtain ⟨hpos, hle⟩ := hls l List.mem_cons_self
      have hcons : encodeLabels (l :: ls) = UInt8.ofNat l.length :: (l ++ encodeLabels ls) := rfl
      rw [hcons, holdsAt_cons, holdsAt_append] at h
      obtain ⟨hsize, hbytes, hrest⟩ := h
      have hlabels := ih (fun l' hl' => hls l' (List.mem_cons_of_mem _ hl')) hrest
      refine .cons hpos hle ?_ hbytes ?_
      · rw [hsize, UInt8.toNat_ofNat']
        omega
      · have hend : o + 1 + (l.length : ℤ) + (encodeLabels ls).length =
            o + (encodeLabels (l :: ls)).length := by
          rw [hcons, List.length_cons, List.length_append]
          omega
        rw [← hend]
        exact hlabels

/-- **Names without pointers are parsed.**  For every non-empty list of labels of 1 to 63 bytes
whose text has at most 253, every message with their encoding behind at least one byte and before
any other bytes, whatever stands in the buffer behind the message and whatever `name` was before:
`dns_parse_name` at the encoding returns 0 with the labels joined by dots.  So `handle_dns_query`,
which parses the name behind the header, compares the domain that was asked for with
`trusted_ns_domains`. -/
theorem parseName_uncompressed (labels : List Bytes) (hne : labels ≠ [])
    (hlabels : ∀ l ∈ labels, 1 ≤ l.length ∧ l.length ≤ 63)
    (htext : (joinDots labels).length ≤ 253) (before after : Bytes) (hbefore : 1 ≤ before.length)
    (m : ℤ → UInt8) (hm : HoldsAt m 0 (before ++ encodeName labels ++ after)) (name : Bytes) :
    Returns m (fun d => dnsParseName d before.length
        (before ++ encodeName labels ++ after).length name) (0, joinDots labels) ∧
      ∀ trustedNsDomains, before.length = 12 →
        Returns m (fun d => matchTrustedDomains d trustedNsDomains
            (before ++ encodeName labels ++ after).length)
          (trustedNsDomains.any fun domain => (find domain (joinDots labels)).isSome) := by
  rw [List.append_assoc, holdsAt_append, encodeName, List.append_assoc, holdsAt_append] at hm
  obtain ⟨-, hname, hzero⟩ := hm
  rw [zero_add] at hname hzero
  have hat := labelsAt_of_holdsAt hlabels hname
  have hlast := (holdsAt_cons.mp hzero).1
  have hlen : (before.length : ℤ) + (encodeLabels labels).length <
      ((before ++ encodeName labels ++ after).length : ℕ) := by
    rw [List.length_append, List.length_append, encodeName, List.length_append, List.length_cons]
    omega
  have heval := fun name => parseName_ends hat hlen hlast (by omega) htext name
  simp only [if_neg hne] at heval
  refine ⟨returns_of_eval (heval name 0), fun domains htwelve => ⟨1, fun d hd => ?_⟩⟩
  obtain ⟨d, rfl⟩ : ∃ n, d = n + 1 := ⟨d - 1, by omega⟩
  have hquery := heval [] d
  rw [htwelve, show ((12 : ℕ) : ℤ) = 12 from rfl] at hquery
  show (matchTrustedDomains (d + 1) domains _).eval m = _
  rw [matchTrustedDomains, Reads.eval_bind, hquery]
  simp only
  rw [if_neg (not_not_intro rfl), Reads.eval_pure]

/-- `www.a`, behind a header of twelve bytes. -/
theorem parseName_uncompressed_www :
    Returns (ofBytes (List.replicate 12 7 ++ encodeName [[119, 119, 119], [97]] ++ [0, 1, 0, 1]))
      (fun d => dnsParseName d 12 23 []) (0, [119, 119, 119, 46, 97]) :=
  (parseName_uncompressed [[119, 119, 119], [97]] (by decide) (by decide) (by decide)
    (List.replicate 12 7) [0, 1, 0, 1] (by decide) _ (by unfold HoldsAt; decide) []).1

/-! ## Names with pointers -/

lemma NameAt.length_eq {gs : List (List Bytes)} {ptrs : List ℤ} {e : ℤ}
    (h : NameAt m len o gs ptrs e) : gs.length = ptrs.length + 1 := by
  induction h with
  | ends labels inside zero => rfl
  | pointer labels inside flag earlier rest ih => rw [List.length_cons, List.length_cons, ih]

/-- **When a compressed name is parsed.**  For every message with a name at `o` that ends in a
pointer, where the pointers lead to earlier names and the text has at most 253 bytes: if all
pointers have offsets from 1 to 255, then `dns_parse_name` returns 0 with the text of the name if
and only if no group of its labels is empty, that is, if the name does not begin with a pointer
and no pointer leads to another pointer or to the root. -/
theorem parseName_compressed_iff (m : ℤ → UInt8) (len o : ℤ) (gs : List (List Bytes))
    (ptrs : List ℤ) (e : ℤ) (ho : 0 < o) (h : NameAt m len o gs ptrs e) (hptr : ptrs ≠ [])
    (htext : (joinDots gs.flatten).length ≤ 253) (hptrs : ∀ t ∈ ptrs, 0 < t ∧ t < 256) :
    Returns m (fun d => dnsParseName d o len []) (0, joinDots gs.flatten) ↔
      ∀ g ∈ gs, g ≠ [] := by
  have hreturns := h.returns ho hptrs fun g hg =>
    (length_intercalate_le_flatten 46 hg).trans htext
  have htwo : 2 ≤ gs.length := by
    have hlen := h.length_eq
    have hpos := List.length_pos_iff.mpr hptr
    omega
  rw [← length_joined_eq_iff (46 : UInt8) htwo]
  constructor
  · intro hcorrect
    have heq := hcorrect.unique hreturns
    exact congrArg List.length (Prod.mk.inj heq).2.symm
  · intro hlen
    have hall := (length_joined_eq_iff (46 : UInt8) htwo).mp hlen
    have hsame : joinDots (gs.map joinDots) = joinDots gs.flatten :=
      intercalate_map_intercalate 46 hall
    rw [← hsame]
    exact hreturns

/-- A name with one pointer. -/
lemma nameAt_one_pointer {t : ℤ} {ls ls' : List Bytes} (labels : LabelsAt m o ls p)
    (inside : p + 1 < len) (flag : 192 ≤ (m p).toNat) (hoffset : pointerOffset m p = t)
    (earlier : t < p) (rest : LabelsAt m t ls' q) (inside' : q < len) (zero : m q = 0) :
    NameAt m len o [ls, ls'] [t] (p + 2) := by
  subst hoffset
  exact .pointer labels inside flag earlier (.ends rest inside' zero)

/-- The name `a` at 12, and at 15 a label and a pointer to it. -/
def labelAndPointer : ℤ → UInt8 :=
  ofBytes [0, 0, 0, 0, 0, 0, 0, 0, 0, 0, 0, 0, 1, 97, 0, 1, 98, 0xc0, 12]

lemma labelsAt_single {l : Bytes} (pos : 0 < l.length) (le : l.length ≤ 63)
    (size : (m p).toNat = l.length) (bytes : HoldsAt m (p + 1) l)
    (hq : p + 1 + l.length = q) : LabelsAt m p [l] q := by
  subst hq
  exact .cons pos le size bytes (.nil _)

/-- `b.a`, as a label and a pointer. -/
theorem parseName_compressed_label :
    Returns labelAndPointer (fun d => dnsParseName d 15 19 []) (0, [98, 46, 97]) := by
  have hname : NameAt labelAndPointer 19 15 [[[98]], [[97]]] [12] 19 :=
    nameAt_one_pointer
      (labelsAt_single (by decide) (by decide) (by decide) (by unfold HoldsAt; decide) rfl)
      (by decide) (by decide) (by decide) (by decide)
      (labelsAt_single (by decide) (by decide) (by decide) (by unfold HoldsAt; decide) rfl)
      (by decide) (by decide)
  exact (parseName_compressed_iff labelAndPointer 19 15 [[[98]], [[97]]] [12] 19 (by decide)
    hname (by decide) (by decide) (by decide)).mpr (by decide)

/-- The name `www.a` at 12 and a pointer to it at 19; the name `b` at 270, and at 273 a label and a
pointer to it. -/
def compressedNames : ℤ → UInt8 := fun i =>
  if 12 ≤ i ∧ i < 21 then [3, 119, 119, 119, 1, 97, 0, 0xc0, 12].getD (i - 12).toNat 0
  else if 270 ≤ i ∧ i < 277 then [1, 98, 0, 1, 99, 0xc1, 14].getD (i - 270).toNat 0
  else 0

lemma nameAt_pointer_only :
    NameAt compressedNames 277 19 [[], [[119, 119, 119], [97]]] [12] 21 := by
  have hlabels : LabelsAt compressedNames 12 [[119, 119, 119], [97]] 18 :=
    .cons (by decide) (by decide) (by decide) (by unfold HoldsAt; decide)
      (labelsAt_single (by decide) (by decide) (by decide) (by unfold HoldsAt; decide) rfl)
  exact nameAt_one_pointer (.nil 19) (by decide) (by decide) (by decide) (by decide) hlabels
    (by decide) (by decide)

lemma nameAt_far_pointer : NameAt compressedNames 277 273 [[[99]], [[98]]] [270] 277 :=
  nameAt_one_pointer
    (labelsAt_single (by decide) (by decide) (by decide) (by unfold HoldsAt; decide) rfl)
    (by decide) (by decide) (by decide) (by decide)
    (labelsAt_single (by decide) (by decide) (by decide) (by unfold HoldsAt; decide) rfl)
    (by decide) (by decide)

/-- A name that is a pointer only gets a dot in front, and a pointer to offset 270 is taken for one
to offset 14. -/
theorem compressed_names_misread :
    (NameAt compressedNames 277 19 [[], [[119, 119, 119], [97]]] [12] 21 ∧
        ¬ Returns compressedNames (fun d => dnsParseName d 19 277 [])
          (0, joinDots [[119, 119, 119], [97]])) ∧
      NameAt compressedNames 277 273 [[[99]], [[98]]] [270] 277 ∧
        ¬ Returns compressedNames (fun d => dnsParseName d 273 277 [])
          (0, joinDots [[99], [98]]) := by
  have hdot : (dnsParseName 2 19 277 []).eval compressedNames =
      some (0, [46, 119, 119, 119, 46, 97]) := by decide
  have hfar : ((dnsParseName 2 273 277 []).eval compressedNames).map (·.2.length) =
      some 121 := by decide +kernel
  obtain ⟨r, hr, hlen⟩ := Option.map_eq_some_iff.mp hfar
  refine ⟨⟨nameAt_pointer_only, fun h => ?_⟩, nameAt_far_pointer, fun h => ?_⟩
  · have heq := h.unique (returns_of_eval hdot)
    exact absurd (Prod.mk.inj heq).2 (by decide)
  · have heq := h.unique (returns_of_eval hr)
    rw [← heq] at hlen
    exact absurd hlen (by decide)

end Snova
