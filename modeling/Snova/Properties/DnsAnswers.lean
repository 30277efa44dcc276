import Snova.Properties.DnsReads
import Snova.Properties.DnsWire

/-!
# DNS responses

RFC 1035 puts the questions of a response behind its header and the answers behind the questions.
`ResponseAt` is this format, with answers of the types A, AAAA and CNAME.

`dns_parse_answers` skips the names of the questions without a look at pointers, and it finds the
fields of an answer by the length of the *text* of its owner: two bytes more than the text are two
bytes more than the owner exactly if the owner is a name of labels, or a pointer, for which the
length is not used.  For labels and a pointer the text that the pointer leads to is counted as well,
and the root has no two bytes.  `answers_found` says for which owners the answers are found.
-/

namespace Snova

variable {m : ℤ → UInt8} {len off p q e fin : ℤ}

/-! ## The format -/

/-- The questions of a message, with the pointers in their names. -/
inductive QuestionsAt (m : ℤ → UInt8) (len : ℤ) : ℤ → List (List ℤ) → ℤ → Prop
  | nil (off : ℤ) : QuestionsAt m len off [] off
  | cons {off e fin : ℤ} {gs : List (List Bytes)} {ptrs : List ℤ} {questions : List (List ℤ)}
      (name : NameAt m len off gs ptrs e) (inside : e + 4 ≤ len)
      (rest : QuestionsAt m len (e + 4) questions fin) :
      QuestionsAt m len off (ptrs :: questions) fin

/-- An answer of a message: the owner as it is encoded, the type and the data. -/
structure Record where
  groups : List (List Bytes)
  ptrs : List ℤ
  type : ℕ
  data : Bytes

/-- The data of an answer is an address, or a name. -/
def Record.DataAt (m : ℤ → UInt8) (len pos : ℤ) (r : Record) : Prop :=
  r.type = dnsAnsTypeA ∧ r.data.length = 4 ∨ r.type = dnsAnsTypeAaaa ∧ r.data.length = 16 ∨
    r.type = dnsAnsTypeCname ∧ ∃ gs ptrs, NameAt m len pos gs ptrs (pos + r.data.length)

/-- The answer at `off`, whose owner ends at `e`. -/
structure RecordAt (m : ℤ → UInt8) (len off e : ℤ) (r : Record) : Prop where
  owner : NameAt m len off r.groups r.ptrs e
  text : (joinDots r.groups.flatten).length ≤ 253
  -- a pointer leads behind the header
  ptrs : ∀ t ∈ r.ptrs, 12 ≤ t
  type : u16 m e = r.type
  size : u16 m (e + 8) = r.data.length
  data : HoldsAt m (e + 10) r.data
  dataAt : r.DataAt m len (e + 10)
  inside : e + 10 + r.data.length ≤ len

/-- The answers of a message. -/
inductive RecordsAt (m : ℤ → UInt8) (len : ℤ) : ℤ → List Record → Prop
  | nil (off : ℤ) : RecordsAt m len off []
  | cons {off e : ℤ} {r : Record} {rs : List Record} (record : RecordAt m len off e r)
      (rest : RecordsAt m len (e + 10 + r.data.length) rs) : RecordsAt m len off (r :: rs)

/-- A response with its questions and answers.  Other sections may follow. -/
structure ResponseAt (m : ℤ → UInt8) (len : ℤ) (questions : List (List ℤ))
    (records : List Record) : Prop where
  header : 12 ≤ len
  questionNum : u16 m 4 = questions.length
  answersNum : u16 m 6 = records.length
  sections : ∃ off, QuestionsAt m len 12 questions off ∧ RecordsAt m len off records

/-- The answer that the code has read is that of the message. -/
def DnsAnswer.Reports (ans : DnsAnswer) (r : Record) : Prop :=
  ans.type = r.type ∧ (r.type = dnsAnsTypeA → ans.v4Ip = r.data) ∧
    (r.type = dnsAnsTypeAaaa → ans.v6Ip = r.data)

/-! ## Questions -/

/-- The loop goes over labels, of which it only needs that they are inside. -/
lemma skipNameLoop_labels (ptr : ℤ) {ls : List Bytes} (h : LabelsAt m p ls q) (hq : q < len) :
    ∀ left : ℕ, (len - p).toNat ≤ left → ∃ left' : ℕ, (len - q).toNat ≤ left' ∧
      (skipNameLoop ptr len left p (len - p)).eval m =
        (skipNameLoop ptr len left' q (len - q)).eval m := by
  induction h with
  | nil p => exact fun left hleft => ⟨left, hleft, rfl⟩
  | @cons p q l ls pos le size bytes rest ih =>
      intro left hleft
      have hle := rest.le
      obtain ⟨left, rfl⟩ : ∃ n, left = n + 1 := ⟨left - 1, by omega⟩
      obtain ⟨left', hleft', heval⟩ := ih hq left (by omega)
      refine ⟨left', hleft', ?_⟩
      rw [← heval, skipNameLoop, if_pos (by omega), Reads.eval_bind, Reads.eval_get]
      simp only [size]
      rw [if_neg (by omega), if_neg (by omega)]
      have hnext : p + ((l.length : ℤ) + 1) = p + 1 + l.length := by omega
      have hremaining : len - p - ((l.length : ℤ) + 1) = len - (p + 1 + l.length) := by omega
      rw [hnext, hremaining]

/-- `skip_name` finds the length of a name without pointers. -/
lemma eval_skipName {ls : List Bytes} (labels : LabelsAt m off ls p) (inside : p < len)
    (zero : m p = 0) : (skipName off (len - off)).eval m = p + 1 - off := by
  obtain ⟨left, hleft, heval⟩ :=
    skipNameLoop_labels off labels inside (len - off).toNat (le_refl _)
  obtain ⟨left, rfl⟩ : ∃ n, left = n + 1 := ⟨left - 1, by omega⟩
  rw [skipName, add_sub_cancel, heval, skipNameLoop, if_pos inside, Reads.eval_bind,
    Reads.eval_get, zero]
  simp only
  have hzero : ((UInt8.toNat 0 : ℕ) : ℤ) = 0 := rfl
  rw [hzero, if_neg (by omega), if_pos rfl, Reads.eval_pure]
  omega

/-- Questions whose names have no pointers are skipped. -/
lemma QuestionsAt.eval_questionLoop {questions : List (List ℤ)}
    (h : QuestionsAt m len off questions fin) (hplain : ∀ ptrs ∈ questions, ptrs = []) :
    (questionLoop questions.length off (len - off)).eval m = some fin := by
  induction h with
  | nil off => rfl
  | @cons off e fin gs ptrs questions name inside rest ih =>
      have hrest := ih fun ptrs' hptrs' => hplain ptrs' (List.mem_cons_of_mem _ hptrs')
      obtain rfl := hplain ptrs List.mem_cons_self
      cases name with
      | @ends off p ls labels hp zero =>
          have hle := labels.le
          rw [List.length_cons, questionLoop, Reads.eval_bind, eval_skipName labels hp zero,
            if_neg (by omega), if_neg (by omega)]
          have hnext : off + (p + 1 - off + 4) = p + 1 + 4 := by omega
          have hremaining : len - off - (p + 1 - off + 4) = len - (p + 1 + 4) := by omega
          rw [hnext, hremaining]
          exact hrest

/-! ## Owners -/

/-- The fields of the answer are found. -/
def Record.Readable (m : ℤ → UInt8) (len : ℤ) (r : Record) : Prop :=
  match r.groups, r.ptrs with
  -- the root
  | [] :: _, [] => False
  -- a pointer, from which no chain of pointers returns
  | [] :: _, t :: _ => NeverReturns (LeadsTo m len) t
  -- labels and a pointer, in whose low byte is an offset without a text
  | _, t :: _ => NoText m len (t % 256)
  | _, [] => True

/-- The fields of the answer are looked for behind their place. -/
def Record.Shifted (m : ℤ → UInt8) (len : ℤ) (r : Record) : Prop :=
  match r.groups, r.ptrs with
  -- labels and a pointer, in whose low byte is an offset with a text
  | (_ :: _) :: _, t :: _ =>
      ¬ NoText m len (t % 256) ∧ NeverReturns (LeadsTo m len) (t % 256)
  | _, _ => False

/-- The name where a pointer leads to is read, if the chain of pointers ends. -/
lemma NameAt.eval_zero {gs : List (List Bytes)} {ptrs : List ℤ} {d : ℕ} {rc : ℤ} {name : Bytes}
    (h : NameAt m len off gs ptrs e) (hoff : 0 < off)
    (hfits : ∀ g ∈ gs, (joinDots g).length ≤ 253)
    (heval : (dnsParseName d off len []).eval m = some (rc, name)) : rc = 0 := by
  cases d with
  | zero => cases heval
  | succ d =>
      rw [eval_dnsParseName_succ] at heval
      cases h with
      | @ends _ p ls labels inside zero =>
          have hle := labels.le
          rw [if_neg (by omega), nameLoopAt_ends labels inside zero (hfits ls List.mem_cons_self)]
            at heval
          exact (Prod.mk.inj (Option.some.inj heval)).1.symm
      | @pointer _ p e ls gs ptrs labels inside flag earlier rest =>
          have hle := labels.le
          rw [if_neg (by omega), nameLoopAt_pointer labels (by omega) flag
            (hfits ls List.mem_cons_self)] at heval
          obtain ⟨r, -, hr⟩ := Option.map_eq_some_iff.mp heval
          exact (Prod.mk.inj hr).1.symm

/-- Labels and a pointer: the text of the labels, and what the code finds behind the pointer. -/
lemma eval_labels_pointer {ls : List Bytes} (labels : LabelsAt m off ls p) (hoff : 0 < off)
    (inside : p + 1 < len) (flag : 192 ≤ (m p).toNat) (hfits : (joinDots ls).length ≤ 253)
    (d : ℕ) :
    (dnsParseName (d + 1) off len []).eval m =
      ((dnsParseName d (pointerOffset m p % 256) len []).eval m).map fun r =>
        (0, joinDots ls ++ 46 :: r.2) := by
  have hle := labels.le
  have hlow : ((m (p + 1)).toNat : ℤ) = pointerOffset m p % 256 := by
    have hlt := (m (p + 1)).toNat_lt
    unfold pointerOffset
    omega
  rw [eval_dnsParseName_succ, if_neg (by omega),
    nameLoopAt_pointer labels (by omega) flag hfits]
  simp only
  rw [hlow, labels.assignName_eq, ite_joinDots]

/-- A label is no pointer. -/
lemma LabelsAt.first_lt {l : Bytes} {ls : List Bytes} (h : LabelsAt m off (l :: ls) q) :
    (m off).toNat < 192 := by
  cases h with
  | cons pos le size bytes rest => omega

/-- The text of a group is not longer than that of the whole owner. -/
lemma RecordAt.group_fits {r : Record} (h : RecordAt m len off e r) :
    ∀ g ∈ r.groups, (joinDots g).length ≤ 253 := fun _ hg =>
  (length_intercalate_le_flatten 46 hg).trans h.text

/-- For a readable owner the length of its text leads to its end. -/
lemma RecordAt.owner_of_readable {r : Record} (h : RecordAt m len off e r) (hoff : 0 < off)
    (hr : r.Readable m len) :
    ∃ name, Returns m (fun d => dnsParseName d (ownerOffset m off) len []) (0, name) ∧
      off + fieldsOffset (u16 m off) name + 2 = e := by
  obtain ⟨groups, ptrs, type, data⟩ := r
  have hfits := h.group_fits
  have hptrs := h.ptrs
  cases h.owner with
  | @ends _ p ls labels inside zero =>
      cases ls with
      | nil => exact hr.elim
      | cons l ls =>
          have heval := parseName_ends labels inside zero hoff (hfits _ List.mem_cons_self) [] 0
          rw [if_neg (List.cons_ne_nil l ls)] at heval
          have hlen := labels.length_joinDots (List.cons_ne_nil l ls)
          refine ⟨joinDots (l :: ls), ?_, ?_⟩
          · rw [ownerOffset_of_label labels.first_lt]
            exact returns_of_eval heval
          · rw [fieldsOffset_of_label labels.first_lt]
            omega
  | @pointer _ p e' ls gs ptrs labels inside flag earlier rest =>
      cases ls with
      | nil =>
          cases labels
          obtain ⟨d, ⟨rc, name⟩, heval⟩ := (exists_eval_iff_neverReturns []).mpr hr
          have hpos := hptrs _ List.mem_cons_self
          obtain rfl := rest.eval_zero (by omega)
            (fun g hg => hfits g (List.mem_cons_of_mem _ hg)) heval
          refine ⟨name, ?_, ?_⟩
          · rw [ownerOffset_of_pointer flag]
            exact returns_of_eval heval
          · rw [fieldsOffset_of_pointer flag]
            omega
      | cons l ls =>
          obtain ⟨rc, depth, hdepth⟩ := noText_iff_returns.mp hr
          have heval := eval_labels_pointer labels hoff inside flag (hfits _ List.mem_cons_self)
            depth
          rw [hdepth depth (le_refl depth)] at heval
          have hlen := labels.length_joinDots (List.cons_ne_nil l ls)
          refine ⟨joinDots (l :: ls) ++ [46], ?_, ?_⟩
          · rw [ownerOffset_of_label labels.first_lt]
            exact returns_of_eval heval
          · rw [fieldsOffset_of_label labels.first_lt, List.length_append, List.length_singleton]
            omega

/-- An owner that is not readable is the root, or a call for it does not return, or the fields are
looked for in the wrong place. -/
lemma RecordAt.owner_of_not_readable {r : Record} (h : RecordAt m len off e r) (hoff : 0 < off)
    (hr : ¬ r.Readable m len) (hs : ¬ r.Shifted m len) :
    (∀ d, (dnsParseName d (ownerOffset m off) len []).eval m = none) ∨
      ((∀ d, (dnsParseName (d + 1) (ownerOffset m off) len []).eval m = some (0, [])) ∧
        fieldsOffset (u16 m off) [] = 0 ∧ e = off + 1) := by
  obtain ⟨groups, ptrs, type, data⟩ := r
  have hfits := h.group_fits
  cases h.owner with
  | @ends _ p ls labels inside zero =>
      cases ls with
      | nil =>
          cases labels
          have hlabel : (m off).toNat < 192 := by
            rw [zero]
            decide
          refine .inr ⟨fun d => ?_, fieldsOffset_of_label hlabel [], rfl⟩
          rw [ownerOffset_of_label hlabel]
          exact parseName_ends (.nil off) inside zero hoff (hfits _ List.mem_cons_self) [] d
      | cons l ls => exact (hr trivial).elim
  | @pointer _ p e' ls gs ptrs labels inside flag earlier rest =>
      left
      intro d
      cases ls with
      | nil =>
          cases labels
          rw [ownerOffset_of_pointer flag]
          by_contra hne
          obtain ⟨r, hr'⟩ := Option.ne_none_iff_exists'.mp hne
          exact hr ((exists_eval_iff_neverReturns []).mp ⟨d, r, hr'⟩)
      | cons l ls =>
          rw [ownerOffset_of_label labels.first_lt]
          cases d with
          | zero => rfl
          | succ d =>
              rw [eval_labels_pointer labels hoff inside flag (hfits _ List.mem_cons_self) d,
                Option.map_eq_none_iff]
              by_contra hne
              obtain ⟨r, hname⟩ := Option.ne_none_iff_exists'.mp hne
              exact hs ⟨hr, (exists_eval_iff_neverReturns []).mp ⟨d, r, hname⟩⟩

/-! ## Answers -/

/-- The fields of an answer, read where they are. -/
lemma RecordAt.eval_parseFields {r : Record} {fields : ℤ} (h : RecordAt m len off e r)
    (he : off + fields + 2 = e) (nm : ℕ) :
    ∃ ans, (parseFields len off nm fields).eval m = some (ans, e + 10 + r.data.length) ∧
      ans.Reports r := by
  have hinside := h.inside
  have hsize : off + fields + 10 = e + 8 := by omega
  have hpos : off + (kDNSAnswerHeaderSize : ℕ) + fields = e + 10 := by
    unfold kDNSAnswerHeaderSize
    omega
  have hnext : off + ((kDNSAnswerHeaderSize : ℕ) + fields + r.data.length) =
      e + 10 + r.data.length := by omega
  have hfits : ¬ len < off + fields + (kDNSAnswerHeaderSize : ℕ) + r.data.length := by omega
  unfold parseFields
  simp only [Reads.eval_bind, eval_readU16]
  rw [he, hsize, h.type, h.size, if_neg hfits, Reads.eval_bind, hpos, hnext]
  have hdata := h.data
  unfold HoldsAt at hdata
  obtain ⟨htype, hlen⟩ | ⟨htype, hlen⟩ | ⟨htype, -⟩ := h.dataAt
  · have hcname : r.type ≠ dnsAnsTypeCname := by
      rw [htype]
      decide
    rw [hlen] at hdata
    rw [answerData, if_neg hcname, if_pos htype, Reads.eval_bind, Reads.eval_getMany, hdata]
    exact ⟨_, rfl, rfl, fun _ => rfl, fun hv6 => absurd (htype.symm.trans hv6) (by decide)⟩
  · have hcname : r.type ≠ dnsAnsTypeCname := by
      rw [htype]
      decide
    have hv4 : r.type ≠ dnsAnsTypeA := by
      rw [htype]
      decide
    rw [hlen] at hdata
    rw [answerData, if_neg hcname, if_neg hv4, if_pos htype, Reads.eval_bind,
      Reads.eval_getMany, hdata]
    exact ⟨_, rfl, rfl, fun h => absurd h hv4, fun _ => rfl⟩
  · rw [answerData, if_pos htype]
    exact ⟨_, rfl, rfl, fun hv4 => absurd (htype.symm.trans hv4) (by decide),
      fun hv6 => absurd (htype.symm.trans hv6) (by decide)⟩

/-- One byte too far, the low byte of the type is taken for the high one. -/
lemma RecordAt.eval_parseFields_root {r : Record} (h : RecordAt m len off e r) (he : e = off + 1)
    (nm : ℕ) : (parseFields len off nm 0).eval m = none := by
  have hlarge : 256 ≤ u16 m (off + 0 + 2) := by
    have hhi := (m e).toNat_lt
    have hlo := (m (e + 1)).toNat_lt
    have htype := h.type
    have hposition : off + 0 + 2 = e + 1 := by omega
    rw [hposition]
    unfold u16 at htype ⊢
    obtain ⟨ht, -⟩ | ⟨ht, -⟩ | ⟨ht, -⟩ := h.dataAt
    · unfold dnsAnsTypeA at ht
      omega
    · unfold dnsAnsTypeAaaa at ht
      omega
    · unfold dnsAnsTypeCname at ht
      omega
  unfold parseFields
  simp only [Reads.eval_bind, eval_readU16]
  split
  · rfl
  · have hcname : u16 m (off + 0 + 2) ≠ dnsAnsTypeCname := by
      unfold dnsAnsTypeCname
      omega
    have ha : u16 m (off + 0 + 2) ≠ dnsAnsTypeA := by
      unfold dnsAnsTypeA
      omega
    have haaaa : u16 m (off + 0 + 2) ≠ dnsAnsTypeAaaa := by
      unfold dnsAnsTypeAaaa
      omega
    rw [Reads.eval_bind, answerData, if_neg hcname, if_neg ha, if_neg haaaa]
    rfl

/-- One round of the loop. -/
lemma eval_answerLoop_succ (m : ℤ → UInt8) (d n : ℕ) (len off : ℤ) (answers : List DnsAnswer) :
    (answerLoop d len (n + 1) off answers).eval m =
      ((dnsParseName d (ownerOffset m off) len []).eval m).bind fun owner =>
        if owner.1 < 0 then some (-1, answers)
        else match (parseFields len off (u16 m off) (fieldsOffset (u16 m off) owner.2)).eval m with
          | none => some (-1, answers)
          | some (ans, next) => (answerLoop d len n next (answers ++ [ans])).eval m := by
  rw [answerLoop, Reads.eval_bind, eval_readU16, Reads.eval_bind, nameOffset_u16]
  cases (dnsParseName d (ownerOffset m off) len []).eval m with
  | none => rfl
  | some owner =>
      obtain ⟨rc, name⟩ := owner
      simp only [Option.bind_some]
      split
      · rfl
      · rw [Reads.eval_bind]
        cases (parseFields len off (u16 m off) (fieldsOffset (u16 m off) name)).eval m with
        | none => rfl
        | some r => rfl

/-- A readable answer is listed, and the loop goes on behind it. -/
lemma RecordAt.answerLoop_of_readable {r : Record} (h : RecordAt m len off e r) (hoff : 0 < off)
    (hr : r.Readable m len) (n : ℕ) (answers : List DnsAnswer) :
    ∃ ans, ans.Reports r ∧ ∃ depth, ∀ d, depth ≤ d →
      (answerLoop d len (n + 1) off answers).eval m =
        (answerLoop d len n (e + 10 + r.data.length) (answers ++ [ans])).eval m := by
  obtain ⟨name, ⟨depth, hname⟩, hend⟩ := h.owner_of_readable hoff hr
  obtain ⟨ans, hfields, hreports⟩ := h.eval_parseFields hend (u16 m off)
  refine ⟨ans, hreports, depth, fun d hd => ?_⟩
  rw [eval_answerLoop_succ, hname d hd, Option.bind_some, if_neg (lt_irrefl (0 : ℤ)), hfields]

/-- At an answer that is not readable, the loop does not end well. -/
lemma RecordAt.answerLoop_of_not_readable {r : Record} (h : RecordAt m len off e r) (hoff : 0 < off)
    (hr : ¬ r.Readable m len) (hs : ¬ r.Shifted m len) (d n : ℕ) (answers result : List DnsAnswer) :
    (answerLoop d len (n + 1) off answers).eval m ≠ some (0, result) := by
  rw [eval_answerLoop_succ]
  obtain hnone | ⟨hroot, hfields, he⟩ := h.owner_of_not_readable hoff hr hs
  · rw [hnone d, Option.bind_none]
    exact fun h => by cases h
  · cases d with
    | zero => exact fun h => by cases h
    | succ d =>
        rw [hroot d, Option.bind_some, if_neg (lt_irrefl (0 : ℤ)), hfields,
          h.eval_parseFields_root he (u16 m off)]
        intro heq
        exact absurd (Prod.mk.inj (Option.some.inj heq)).1 (by decide)

/-! ## Responses -/

lemma NameAt.lt {gs : List (List Bytes)} {ptrs : List ℤ} (h : NameAt m len off gs ptrs e) :
    off < e := by
  cases h with
  | ends labels inside zero =>
      have hle := labels.le
      omega
  | pointer labels inside flag earlier rest =>
      have hle := labels.le
      omega

lemma QuestionsAt.le {questions : List (List ℤ)} (h : QuestionsAt m len off questions fin) :
    off ≤ fin := by
  induction h with
  | nil off => exact le_refl off
  | cons name inside rest ih =>
      have hlt := name.lt
      omega

/-- Readable answers are all listed. -/
lemma RecordsAt.returns_of_readable {records : List Record} (h : RecordsAt m len off records)
    (hoff : 0 < off) (hr : ∀ r ∈ records, r.Readable m len) (answers : List DnsAnswer) :
    ∃ found, List.Forall₂ DnsAnswer.Reports found records ∧
      Returns m (fun d => answerLoop d len records.length off answers) (0, answers ++ found) := by
  induction h generalizing answers with
  | nil off =>
      refine ⟨[], .nil, 0, fun d _ => ?_⟩
      rw [List.append_nil]
      rfl
  | @cons off e r rs record rest ih =>
      have hlt := record.owner.lt
      obtain ⟨ans, hreports, depth, hstep⟩ := record.answerLoop_of_readable hoff
        (hr r List.mem_cons_self) rs.length answers
      obtain ⟨found, hfound, depth', hrest⟩ := ih (by omega)
        (fun r' hr' => hr r' (List.mem_cons_of_mem _ hr')) (answers ++ [ans])
      refine ⟨ans :: found, .cons hreports hfound, max depth depth', fun d hd => ?_⟩
      rw [List.length_cons, hstep d (le_trans (le_max_left _ _) hd),
        hrest d (le_trans (le_max_right _ _) hd), List.append_assoc, List.singleton_append]

/-- If the loop ends well, then all answers were readable. -/
lemma RecordsAt.readable_of_returns {records : List Record} {answers result : List DnsAnswer}
    (h : RecordsAt m len off records) (hoff : 0 < off) (hs : ∀ r ∈ records, ¬ r.Shifted m len)
    (hret : Returns m (fun d => answerLoop d len records.length off answers) (0, result)) :
    ∀ r ∈ records, r.Readable m len := by
  induction h generalizing answers with
  | nil off => exact fun r hr => absurd hr List.not_mem_nil
  | @cons off e r rs record rest ih =>
      have hlt := record.owner.lt
      obtain ⟨depth, hdepth⟩ := hret
      have hreadable : r.Readable m len := by
        by_contra hr
        exact record.answerLoop_of_not_readable hoff hr (hs r List.mem_cons_self) depth rs.length
          answers result (hdepth depth (le_refl depth))
      obtain ⟨ans, -, depth', hstep⟩ :=
        record.answerLoop_of_readable hoff hreadable rs.length answers
      refine List.forall_mem_cons.mpr ⟨hreadable, ?_⟩
      refine ih (by omega) (fun r' hr' => hs r' (List.mem_cons_of_mem _ hr')) (?_ : Returns m
        (fun d => answerLoop d len rs.length (e + 10 + r.data.length) (answers ++ [ans])) _)
      refine ⟨max depth depth', fun d hd => ?_⟩
      rw [← hstep d (le_trans (le_max_right _ _) hd)]
      exact hdepth d (le_trans (le_max_left _ _) hd)

/-- Behind questions whose names have no pointers, the answers are read from their beginning. -/
lemma ResponseAt.eval_eq {questions : List (List ℤ)} {records : List Record}
    (h : ResponseAt m len questions records) (hplain : ∀ ptrs ∈ questions, ptrs = []) :
    ∃ off, 0 < off ∧ RecordsAt m len off records ∧
      ∀ d, (dnsParseAnswers d len).eval m = (answerLoop d len records.length off []).eval m := by
  obtain ⟨off, hquestions, hrecords⟩ := h.sections
  have hoff := hquestions.le
  refine ⟨off, by omega, hrecords, fun d => ?_⟩
  rw [dnsParseAnswers]
  simp only [Reads.eval_bind, eval_readU16]
  rw [h.questionNum, h.answersNum, hquestions.eval_questionLoop hplain]

/-- **When the answers are found.**  For every response with questions whose names have no pointers:
if every owner is readable, then `dns_parse_answers` returns 0 with the answers of the response, in
order, with their types and addresses.  An owner is readable if it is labels without a pointer, but
not the root, or if it is a pointer from which no chain of pointers returns, or if it is labels and
a pointer whose low byte is an offset where the message has no text: 0 or not inside, the root, or
bytes that are no name.  Conversely, if no owner is shifted, that is, labels and a pointer whose low
byte is an offset with a text, then the answers are only found if every owner is readable. -/
theorem answers_found (m : ℤ → UInt8) (len : ℤ) (questions : List (List ℤ))
    (records : List Record) (h : ResponseAt m len questions records)
    (hplain : ∀ ptrs ∈ questions, ptrs = []) :
    ((∀ r ∈ records, r.Readable m len) →
        ∃ answers, Returns m (fun d => dnsParseAnswers d len) (0, answers) ∧
          List.Forall₂ DnsAnswer.Reports answers records) ∧
      ((∀ r ∈ records, ¬ r.Shifted m len) →
        (∃ answers, Returns m (fun d => dnsParseAnswers d len) (0, answers) ∧
          List.Forall₂ DnsAnswer.Reports answers records) →
        ∀ r ∈ records, r.Readable m len) := by
  obtain ⟨off, hoff, hrecords, heval⟩ := h.eval_eq hplain
  simp only [Returns, heval]
  constructor
  · intro hr
    obtain ⟨found, hfound, hret⟩ := hrecords.returns_of_readable hoff hr []
    exact ⟨found, hret, hfound⟩
  · rintro hs ⟨answers, hret, -⟩
    exact hrecords.readable_of_returns hoff hs hret

/-- A response to the question `a` with two answers: the owner of the first is a pointer to the
question, that of the second is `b`. -/
def twoAnswers : ℤ → UInt8 :=
  ofBytes [0, 7, 0x81, 0x80, 0, 1, 0, 2, 0, 0, 0, 0, 1, 97, 0, 0, 1, 0, 1,
    0xc0, 12, 0, 1, 0, 1, 0, 0, 0, 60, 0, 4, 1, 2, 3, 4,
    1, 98, 0, 0, 28, 0, 1, 0, 0, 0, 60, 0, 16,
    1, 2, 3, 4, 5, 6, 7, 8, 9, 10, 11, 12, 13, 14, 15, 16]

/-- The name `a` of the question. -/
lemma labelsAt_question (hsize : m 12 = 1) (htext : m 13 = 97) : LabelsAt m 12 [[97]] 14 := by
  refine labelsAt_single (by decide) (by decide) ?_ ?_ rfl
  · rw [hsize]
    rfl
  · exact holdsAt_cons.mpr ⟨htext, rfl⟩

lemma responseAt_twoAnswers : ResponseAt twoAnswers 64 [[]]
    [⟨[[], [[97]]], [12], dnsAnsTypeA, [1, 2, 3, 4]⟩,
      ⟨[[[98]]], [], dnsAnsTypeAaaa, [1, 2, 3, 4, 5, 6, 7, 8, 9, 10, 11, 12, 13, 14, 15, 16]⟩] := by
  have hquestion : LabelsAt twoAnswers 12 [[97]] 14 := labelsAt_question (by decide) (by decide)
  have hfirst : RecordAt twoAnswers 64 19 21 ⟨[[], [[97]]], [12], dnsAnsTypeA, [1, 2, 3, 4]⟩ :=
    { owner := nameAt_one_pointer (.nil 19) (by decide) (by decide) (by decide) (by decide)
        hquestion (by decide) (by decide)
      text := by decide
      ptrs := by decide
      type := by decide
      size := by decide
      data := by unfold HoldsAt; decide
      dataAt := .inl ⟨rfl, rfl⟩
      inside := by decide }
  have howner : LabelsAt twoAnswers 35 [[98]] 37 :=
    labelsAt_single (by decide) (by decide) (by decide) (by unfold HoldsAt; decide) rfl
  have hsecond : RecordAt twoAnswers 64 35 38 ⟨[[[98]]], [], dnsAnsTypeAaaa,
      [1, 2, 3, 4, 5, 6, 7, 8, 9, 10, 11, 12, 13, 14, 15, 16]⟩ :=
    { owner := .ends howner (by decide) (by decide)
      text := by decide
      ptrs := by decide
      type := by decide
      size := by decide
      data := by unfold HoldsAt; decide
      dataAt := .inr (.inl ⟨rfl, rfl⟩)
      inside := by decide }
  exact
    { header := by decide
      questionNum := by decide
      answersNum := by decide
      sections := ⟨19, .cons (.ends hquestion (by decide) (by decide)) (by decide) (.nil 19),
        .cons hfirst (.cons hsecond (.nil _))⟩ }

/-- Both answers of `twoAnswers` are found. -/
theorem answers_found_two :
    ∃ answers, Returns twoAnswers (fun d => dnsParseAnswers d 64) (0, answers) ∧
      List.Forall₂ DnsAnswer.Reports answers
        [⟨[[], [[97]]], [12], dnsAnsTypeA, [1, 2, 3, 4]⟩,
          ⟨[[[98]]], [], dnsAnsTypeAaaa,
            [1, 2, 3, 4, 5, 6, 7, 8, 9, 10, 11, 12, 13, 14, 15, 16]⟩] := by
  refine (answers_found twoAnswers 64 _ _ responseAt_twoAnswers (by decide)).1 ?_
  have hname : (dnsParseName 1 12 64 []).eval twoAnswers = some (0, [97]) := by decide
  have hchain : NeverReturns (LeadsTo twoAnswers 64) 12 :=
    (exists_eval_iff_neverReturns []).mp ⟨1, _, hname⟩
  exact List.forall_mem_cons.mpr ⟨hchain, List.forall_mem_singleton.mpr trivial⟩

/-- If the fields of the first answer are rejected, the call fails. -/
lemma not_returns_of_first (off : ℤ) {name : Bytes} {answers : List DnsAnswer}
    (hquestions : (questionLoop (u16 m 4) 12 (len - 12)).eval m = some off)
    (hanswers : u16 m 6 = 1)
    (howner : Returns m (fun d => dnsParseName d (ownerOffset m off) len []) (0, name))
    (hfields : (parseFields len off (u16 m off) (fieldsOffset (u16 m off) name)).eval m = none) :
    ¬ Returns m (fun d => dnsParseAnswers d len) (0, answers) := by
  rintro ⟨depth, hdepth⟩
  obtain ⟨depth', howner⟩ := howner
  have heval : (dnsParseAnswers (max depth depth') len).eval m = some (0, answers) :=
    hdepth _ (le_max_left _ _)
  rw [dnsParseAnswers] at heval
  simp only [Reads.eval_bind, eval_readU16] at heval
  rw [hquestions, hanswers] at heval
  simp only at heval
  rw [eval_answerLoop_succ, howner _ (le_max_right _ _), Option.bind_some,
    if_neg (lt_irrefl (0 : ℤ)), hfields] at heval
  exact absurd (Prod.mk.inj (Option.some.inj heval)).1 (by decide)

/-- A response to the question `a` with one answer, of the owner `b.a`: a label and a pointer. -/
def labelAndPointerAnswer : ℤ → UInt8 :=
  ofBytes [0, 7, 0x81, 0x80, 0, 1, 0, 1, 0, 0, 0, 0, 1, 97, 0, 0, 1, 0, 1,
    1, 98, 0xc0, 12, 0, 1, 0, 1, 0, 0, 0, 60, 0, 4, 1, 2, 3, 4]

/-- A response without questions and with one answer, of the root. -/
def rootAnswer : ℤ → UInt8 :=
  ofBytes [0, 7, 0x81, 0x80, 0, 0, 0, 1, 0, 0, 0, 0, 0, 0, 1, 0, 1, 0, 0, 0, 60, 0, 4, 1, 2, 3, 4]

/-- Neither a label and a pointer nor the root is read: the fields are looked for one byte behind
their place, as the pointer leads to a name of one byte, and as the root takes one byte less than
two. -/
theorem answers_not_found :
    (ResponseAt labelAndPointerAnswer 37 [[]]
        [⟨[[[98]], [[97]]], [12], dnsAnsTypeA, [1, 2, 3, 4]⟩] ∧
      ∀ answers, ¬ Returns labelAndPointerAnswer (fun d => dnsParseAnswers d 37) (0, answers)) ∧
    ResponseAt rootAnswer 27 [] [⟨[[]], [], dnsAnsTypeA, [1, 2, 3, 4]⟩] ∧
      ∀ answers, ¬ Returns rootAnswer (fun d => dnsParseAnswers d 27) (0, answers) := by
  have hquestion : LabelsAt labelAndPointerAnswer 12 [[97]] 14 :=
    labelsAt_question (by decide) (by decide)
  have hlabel : LabelsAt labelAndPointerAnswer 19 [[98]] 21 :=
    labelsAt_single (by decide) (by decide) (by decide) (by unfold HoldsAt; decide) rfl
  have hpointer : RecordAt labelAndPointerAnswer 37 19 23
      ⟨[[[98]], [[97]]], [12], dnsAnsTypeA, [1, 2, 3, 4]⟩ :=
    { owner := nameAt_one_pointer hlabel (by decide) (by decide) (by decide) (by decide)
        hquestion (by decide) (by decide)
      text := by decide
      ptrs := by decide
      type := by decide
      size := by decide
      data := by unfold HoldsAt; decide
      dataAt := .inl ⟨rfl, rfl⟩
      inside := by decide }
  have hroot : RecordAt rootAnswer 27 12 13 ⟨[[]], [], dnsAnsTypeA, [1, 2, 3, 4]⟩ :=
    { owner := .ends (.nil 12) (by decide) (by decide)
      text := by decide
      ptrs := by decide
      type := by decide
      size := by decide
      data := by unfold HoldsAt; decide
      dataAt := .inl ⟨rfl, rfl⟩
      inside := by decide }
  have hname : (dnsParseName 2 (ownerOffset labelAndPointerAnswer 19) 37 []).eval
      labelAndPointerAnswer = some (0, [98, 46, 97]) := by decide
  have hempty : (dnsParseName 1 (ownerOffset rootAnswer 12) 27 []).eval rootAnswer =
      some (0, []) := by decide
  refine ⟨⟨⟨by decide, by decide, by decide, 19, ?_, .cons hpointer (.nil _)⟩, fun answers => ?_⟩,
    ⟨by decide, by decide, by decide, 12, .nil 12, .cons hroot (.nil _)⟩, fun answers => ?_⟩
  · exact .cons (.ends hquestion (by decide) (by decide)) (by decide) (.nil 19)
  · exact not_returns_of_first 19 (by decide) (by decide) (returns_of_eval hname)
      (by decide)
  · exact not_returns_of_first 12 (by decide) (by decide) (returns_of_eval hempty)
      (by decide)

end Snova
