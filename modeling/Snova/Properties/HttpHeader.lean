import Snova.Properties.HttpProxy
import Mathlib.Data.List.DropRight

/-!
# Finding a header

`http_get_header` looks for the name with its colon anywhere in the head, and for the end of the
line behind it; its callers have cut the head off in front of the empty line, so the last header
has no end of line.  It finds a header exactly when the text it looks for stands first at the start
of that header's line and another line follows.
-/

namespace Snova

/-! ## Heads -/

/-- A header line: `name:rest`. -/
structure HeaderLine where
  name : Bytes
  rest : Bytes

def HeaderLine.text (line : HeaderLine) : Bytes := line.name ++ 58 :: line.rest

/-- The head of a request or a response. -/
structure HttpHead where
  startLine : Bytes
  lines : List HeaderLine

/-- The lines behind the start line, each with the end of the line before it. -/
def linesText (lines : List HeaderLine) : Bytes := lines.flatMap fun line => [13, 10] ++ line.text

/-- The head up to the empty line. -/
def HttpHead.text (head : HttpHead) : Bytes := head.startLine ++ linesText head.lines

/-- There is no end of line in the text. -/
def OneLine (text : Bytes) : Prop := 13 ∉ text ∧ 10 ∉ text

/-- Every line is one, names are names, and the head does not begin with white space. -/
structure HttpHead.WellFormed (head : HttpHead) : Prop where
  startLine : OneLine head.startLine
  begins : ∃ b rest, head.startLine = b :: rest ∧ asciiIsSpace b = false
  names : ∀ line ∈ head.lines, OneLine line.name ∧ 58 ∉ line.name ∧ line.name ≠ []
  rests : ∀ line ∈ head.lines, OneLine line.rest

/-- The line is the first one with this name; the case of letters does not count. -/
structure HttpHead.Wanted (head : HttpHead) (name : Bytes) (before : List HeaderLine)
    (line : HeaderLine) (after : List HeaderLine) : Prop where
  lines_eq : head.lines = before ++ line :: after
  name_eq : equalsIgnoreCase line.name name = true
  first : ∀ other ∈ before, equalsIgnoreCase other.name name = false

/-- Where the line begins in the head. -/
def HttpHead.offset (head : HttpHead) (before : List HeaderLine) : ℕ :=
  head.startLine.length + (linesText before).length + 2

/-! ## Views -/

/-- How many white space characters a text begins with. -/
def leading (text : Bytes) : ℕ := (text.takeWhile asciiIsSpace).length

lemma leading_le (text : Bytes) : leading text ≤ text.length :=
  (List.takeWhile_prefix _).length_le

lemma takeWhile_append_dropWhile_space (text : Bytes) :
    text.takeWhile asciiIsSpace ++ text.dropWhile asciiIsSpace = text :=
  List.takeWhile_append_dropWhile

lemma asciiIsSpace_of_lt_leading {text : Bytes} {i : ℕ} {b : UInt8} (hi : i < leading text)
    (hb : text[i]? = some b) : asciiIsSpace b = true := by
  rw [← takeWhile_append_dropWhile_space text, List.getElem?_append_left hi] at hb
  exact List.mem_takeWhile_imp (List.mem_of_getElem? hb)

lemma drop_leading (text : Bytes) : text.drop (leading text) = text.dropWhile asciiIsSpace := by
  have hdrop : (text.takeWhile asciiIsSpace ++ text.dropWhile asciiIsSpace).drop (leading text)
      = text.dropWhile asciiIsSpace := List.drop_left
  rwa [takeWhile_append_dropWhile_space] at hdrop

/-- A stripped view shows the stripped text. -/
lemma StringView.bytes_strip (v : StringView) (text : Bytes) :
    (v.strip text).bytes text = stripAsciiWhitespace (v.bytes text) := by
  have hdrop : (v.bytes text).dropWhile asciiIsSpace
      = (text.drop (v.pos + leading (v.bytes text))).take (v.size - leading (v.bytes text)) := by
    rw [← drop_leading, ← List.drop_drop, ← List.drop_take]
    rfl
  have hstrip : stripAsciiWhitespace (v.bytes text) <+: (v.bytes text).dropWhile asciiIsSpace :=
    List.rdropWhile_prefix asciiIsSpace _
  rw [hdrop] at hstrip
  have hprefix := hstrip.trans (List.take_prefix (v.size - leading (v.bytes text)) _)
  exact (List.prefix_iff_eq_take.mp hprefix).symm

/-- What a stripped view is depends on where the view begins and on what it shows. -/
lemma StringView.strip_congr {v w : StringView} {text : Bytes} (hpos : v.pos = w.pos)
    (hbytes : v.bytes text = w.bytes text) : v.strip text = w.strip text := by
  rw [StringView.strip, StringView.strip, hpos, hbytes]

lemma StringView.strip_pos_le (v : StringView) (text : Bytes) :
    (v.strip text).pos ≤ v.pos + v.size := by
  have hle := leading_le (v.bytes text)
  have hsize : (v.bytes text).length ≤ v.size := List.length_take_le _ _
  exact Nat.add_le_add_left (hle.trans hsize) v.pos

lemma StringView.getElem?_bytes {v : StringView} {text : Bytes} {i : ℕ}
    (hi : i < (v.bytes text).length) : (v.bytes text)[i]? = text[v.pos + i]? := by
  have hsize : i < v.size := hi.trans_le (List.length_take_le _ _)
  rw [StringView.bytes, List.getElem?_take_of_lt hsize, List.getElem?_drop]

lemma httpGetHeader_eq_map (recvData header : Bytes) :
    httpGetHeader recvData header
      = (httpGetHeaderView recvData header).map (·.bytes recvData) := by
  rw [httpGetHeader, httpGetHeaderView]
  cases find header recvData with
  | none => rfl
  | some pos =>
      simp only [Option.bind_eq_bind, Option.bind_some]
      cases findFrom [13, 10] recvData pos with
      | none => rfl
      | some endPos =>
          simp only [Option.bind_some, Option.map_some, StringView.bytes_strip]
          rfl

lemma httpGetHeaderView_eq_some {recvData header : Bytes} {v : StringView}
    (h : httpGetHeaderView recvData header = some v) :
    ∃ pos n, FirstAt header recvData pos ∧ FirstAt [13, 10] (recvData.drop pos) n ∧
      v = StringView.strip ⟨pos + header.length, n - header.length⟩ recvData := by
  rw [httpGetHeaderView, Option.bind_eq_bind, Option.bind_eq_some_iff] at h
  obtain ⟨pos, hpos, h⟩ := h
  rw [Option.bind_eq_some_iff] at h
  obtain ⟨endPos, hend, h⟩ := h
  rw [findFrom, Option.map_eq_some_iff] at hend
  obtain ⟨n, hn, rfl⟩ := hend
  rw [Nat.add_sub_cancel, Option.some_inj] at h
  exact ⟨pos, n, find_eq_some_iff.mp hpos, find_eq_some_iff.mp hn, h.symm⟩

/-! ## One line of a head -/

/-- A line in a view, with what stands before it and after it. -/
structure LineAt (view before name rest after : Bytes) : Prop where
  view_eq : view = before ++ ([13, 10] ++ ((name ++ 58 :: rest) ++ after))
  name_line : OneLine name
  rest_line : OneLine rest
  after_eq : after = [] ∨ ∃ more, after = [13, 10] ++ more

section Line

variable {view before name rest after wanted : Bytes}

lemma OneLine.append_colon (h : OneLine wanted) : OneLine (wanted ++ [58]) := by
  constructor
  · rw [List.mem_append, not_or]
    exact ⟨h.1, by decide⟩
  · rw [List.mem_append, not_or]
    exact ⟨h.2, by decide⟩

/-- Where the line begins, the line before it has ended. -/
lemma LineAt.drop_eq (hline : LineAt view before name rest after) :
    view.drop (before.length + 2) = (name ++ 58 :: rest) ++ after := by
  rw [hline.view_eq, ← List.drop_drop, List.drop_left]
  rfl

lemma LineAt.getElem?_cr (hline : LineAt view before name rest after) :
    view[before.length]? = some 13 := by
  rw [hline.view_eq, List.getElem?_append_right le_rfl, Nat.sub_self]
  rfl

lemma LineAt.getElem?_lf (hline : LineAt view before name rest after) :
    view[before.length + 1]? = some 10 := by
  rw [hline.view_eq, List.getElem?_append_right (Nat.le_add_right _ 1), Nat.add_sub_cancel_left]
  rfl

/-- The view of what follows the colon. -/
lemma LineAt.bytes_eq (hline : LineAt view before name rest after) {pos size : ℕ}
    (hpos : pos = before.length + 2 + name.length + 1) (hle : rest.length ≤ size)
    (hsize : after ≠ [] → size = rest.length) : StringView.bytes ⟨pos, size⟩ view = rest := by
  have hdrop : view.drop pos = rest ++ after := by
    rw [hpos, Nat.add_assoc _ name.length, ← List.drop_drop, hline.drop_eq, List.append_cons,
      List.append_assoc]
    apply List.drop_left'
    rw [List.length_append, List.length_singleton]
  rw [StringView.bytes, hdrop]
  by_cases hnil : after = []
  · rw [hnil, List.append_nil, List.take_of_length_le hle]
  · rw [hsize hnil, List.take_left]

/-- The search meets the line first if and only if the name is spelled the same and the text
searched for is not before the line. -/
lemma LineAt.firstAt_iff (hline : LineAt view before name rest after) (hwanted : OneLine wanted)
    (hlength : name.length = wanted.length) :
    FirstAt (wanted ++ [58]) view (before.length + 2) ↔
      name = wanted ∧ ¬ wanted ++ [58] <:+: before := by
  have hview : view = before ++ 13 :: ([] ++ 10 :: ((name ++ 58 :: rest) ++ after)) := hline.view_eq
  have hoffset : before.length + 2 = before.length + 1 + (([] : Bytes).length + 1 + 0) := rfl
  have hne : ¬ wanted ++ [58] <:+: [] := by
    rw [List.infix_nil]
    exact List.append_ne_nil_of_right_ne_nil _ (List.cons_ne_nil _ _)
  have hsame : wanted ++ [58] <+: (name ++ 58 :: rest) ++ after ↔ name = wanted := by
    have htext : (name ++ 58 :: rest) ++ after = (name ++ [58]) ++ (rest ++ after) := by
      simp only [List.append_assoc, List.cons_append, List.nil_append]
    have hlen : (name ++ [58]).length = (wanted ++ [58]).length := by
      rw [List.length_append, List.length_append, hlength]
    rw [htext, List.prefix_iff_eq_take, List.take_left' hlen, List.append_left_inj, eq_comm]
  rw [hview, hoffset, firstAt_append_cons_iff hwanted.append_colon.1,
    firstAt_append_cons_iff hwanted.append_colon.2, firstAt_zero_iff, hsame]
  exact ⟨fun h => ⟨h.1.1, h.2⟩, fun h => ⟨⟨h.1, hne⟩, h.2⟩⟩

/-- What is found before the line ends before the line. -/
lemma LineAt.found_before (hline : LineAt view before name rest after) (hwanted : OneLine wanted)
    {pos n : ℕ} (hpos : OccursAt (wanted ++ [58]) view pos)
    (hend : FirstAt [13, 10] (view.drop pos) n) (hlt : pos < before.length + 2) :
    pos + (wanted ++ [58]).length ≤ before.length ∧ pos + n ≤ before.length := by
  have hlf := hpos.end_le hline.getElem?_lf hwanted.append_colon.2 (by omega)
  rw [List.length_append, List.length_singleton] at hlf
  have hcr := hpos.end_le hline.getElem?_cr hwanted.append_colon.1 (by omega)
  have hocc : OccursAt [13, 10] view before.length := by
    rw [hline.view_eq]
    exact occursAt_append before _
  have hn : n ≤ before.length - pos := by
    apply hend.le
    rw [occursAt_drop, Nat.add_sub_cancel' (by omega)]
    exact hocc
  exact ⟨hcr, by omega⟩

/-- What is found behind the start of the line is not the value of the line: there is a colon in
front of it. -/
lemma LineAt.found_behind {value : StringView}
    (hvalue : value.pos = before.length + 2 + wanted.length + 1) {pos k : ℕ}
    (hpos : OccursAt (wanted ++ [58]) view pos) (hgt : before.length + 2 < pos) :
    (value.strip view).pos ≠ pos + (wanted ++ [58]).length + k := by
  intro heq
  rw [List.length_append, List.length_singleton] at heq
  have hstrip : (value.strip view).pos = value.pos + leading (value.bytes view) := rfl
  have hcolon : view[pos + wanted.length]? = some 58 := by
    rw [hpos.getElem? (by rw [List.length_append, List.length_singleton]; omega),
      List.getElem?_append_right le_rfl, Nat.sub_self]
    rfl
  have hlt : pos - (before.length + 2) - 1 < leading (value.bytes view) := by omega
  have hget : (value.bytes view)[pos - (before.length + 2) - 1]? = some 58 := by
    rw [StringView.getElem?_bytes (hlt.trans_le (leading_le _)), ← hcolon]
    congr 1
    omega
  have hspace := asciiIsSpace_of_lt_leading hlt hget
  revert hspace
  decide

/-- A search that meets the line first gives no value if the line is the last: there is no end of
line behind it. -/
lemma LineAt.after_ne_nil (hline : LineAt view before name rest after) {n : ℕ}
    (hend : OccursAt [13, 10] (view.drop (before.length + 2)) n) : after ≠ [] := by
  intro hnil
  have hmem : (13 : UInt8) ∈ view.drop (before.length + 2) :=
    hend.isInfix.subset (List.mem_cons_self ..)
  rw [hline.drop_eq, hnil, List.append_nil, List.mem_append, List.mem_cons] at hmem
  rcases hmem with hmem | hmem | hmem
  · exact hline.name_line.1 hmem
  · exact absurd hmem (by decide)
  · exact hline.rest_line.1 hmem

/-- The end of the line, if it is not the last. -/
lemma LineAt.firstAt_end (hline : LineAt view before name rest after) (hne : after ≠ []) :
    FirstAt [13, 10] (view.drop (before.length + 2)) (name ++ 58 :: rest).length := by
  obtain ⟨more, hmore⟩ := hline.after_eq.resolve_left hne
  have hcr : (13 : UInt8) ∉ name ++ 58 :: rest := by
    rw [List.mem_append, List.mem_cons, not_or, not_or]
    exact ⟨hline.name_line.1, by decide, hline.rest_line.1⟩
  rw [hline.drop_eq, hmore]
  exact firstAt_of_notMem hcr more

/-- The search gives the value of the line if and only if it meets the line first, and the line is
not the last. -/
lemma LineAt.httpGetHeaderView_iff (hline : LineAt view before name rest after)
    (hwanted : OneLine wanted) (hlength : name.length = wanted.length) (value : StringView)
    (hpos : value.pos = before.length + 2 + wanted.length + 1)
    (hbytes : value.bytes view = rest) :
    httpGetHeaderView view (wanted ++ [58]) = some (value.strip view) ↔
      FirstAt (wanted ++ [58]) view (before.length + 2) ∧ after ≠ [] := by
  constructor
  · intro h
    obtain ⟨pos, n, hfirst, hend, heq⟩ := httpGetHeaderView_eq_some h
    have hstrip := congrArg StringView.pos heq
    rcases Nat.lt_trichotomy pos (before.length + 2) with hlt | rfl | hgt
    · have hfound := hline.found_before hwanted hfirst.occurs hend hlt
      have hle := StringView.strip_pos_le
        ⟨pos + (wanted ++ [58]).length, n - (wanted ++ [58]).length⟩ view
      rw [← hstrip] at hle
      have hge : value.pos ≤ (value.strip view).pos := Nat.le_add_right _ _
      dsimp only at hle
      omega
    · exact ⟨hfirst, hline.after_ne_nil hend.occurs⟩
    · exact absurd hstrip (LineAt.found_behind hpos hfirst.occurs hgt)
  · rintro ⟨hfirst, hne⟩
    have hsize : (name ++ 58 :: rest).length - (wanted ++ [58]).length = rest.length := by
      simp only [List.length_append, List.length_cons, List.length_nil, hlength]
      omega
    rw [httpGetHeaderView, find_eq_some_iff.mpr hfirst, Option.bind_eq_bind, Option.bind_some,
      findFrom, find_eq_some_iff.mpr (hline.firstAt_end hne), Option.map_some, Option.bind_some,
      Nat.add_sub_cancel, hsize, Option.some_inj]
    apply StringView.strip_congr
    · rw [hpos, List.length_append, List.length_singleton]
      rfl
    · rw [hbytes]
      apply hline.bytes_eq
      · rw [List.length_append, List.length_singleton, hlength]
        rfl
      · exact le_rfl
      · exact fun _ => rfl

end Line

/-! ## The views of the callers -/

lemma linesText_nil : linesText [] = [] := rfl

lemma linesText_cons (line : HeaderLine) (lines : List HeaderLine) :
    linesText (line :: lines) = [13, 10] ++ (line.text ++ linesText lines) := by
  rw [linesText, List.flatMap_cons, List.append_assoc]
  rfl

lemma linesText_append (before after : List HeaderLine) :
    linesText (before ++ after) = linesText before ++ linesText after :=
  List.flatMap_append

/-- A text of one line stands in some lines if it stands in one of them. -/
lemma infix_linesText_iff {p : Bytes} (hp : OneLine p) (hne : p ≠ []) (text : Bytes)
    (lines : List HeaderLine) :
    p <:+: text ++ linesText lines ↔ p <:+: text ∨ ∃ line ∈ lines, p <:+: line.text := by
  induction lines generalizing text with
  | nil =>
      rw [linesText_nil, List.append_nil]
      simp only [List.not_mem_nil, false_and, exists_false, or_false]
  | cons line lines ih =>
      have hnil : ¬ p <:+: [] := by
        rwa [List.infix_nil]
      have hlines : text ++ linesText (line :: lines)
          = text ++ 13 :: ([] ++ 10 :: (line.text ++ linesText lines)) := by
        rw [linesText_cons]
        rfl
      rw [hlines, infix_append_cons_iff hp.1, infix_append_cons_iff hp.2, ih line.text,
        List.exists_mem_cons_iff]
      simp only [hnil, false_or]

/-- A line in front of a text that does not begin with an end of line: the empty line is where it
is in the text. -/
lemma FirstAt.line {text next : Bytes} {i : ℕ} (h : FirstAt [13, 10, 13, 10] next i)
    (htext : OneLine text) (hnext : next[0]? ≠ some 13) :
    FirstAt [13, 10, 13, 10] (text ++ 13 :: ([] ++ 10 :: next))
      (text.length + 1 + (0 + 1 + i)) := by
  refine ⟨occursAt_append_cons.mpr (occursAt_append_cons.mpr h.occurs), fun j hj hocc => ?_⟩
  rcases Nat.lt_or_ge j text.length with hlt | hge
  · exact not_occursAt_of_notMem htext.1 hlt hocc
  obtain ⟨k, rfl⟩ := Nat.exists_eq_add_of_le hge
  match k with
  | 0 =>
      have hthird := hocc.getElem? (j := 2) (by decide)
      rw [Nat.add_zero, List.getElem?_append_right (Nat.le_add_right _ _),
        Nat.add_sub_cancel_left] at hthird
      exact hnext hthird
  | 1 =>
      have hfirst := hocc.getElem? (j := 0) (by decide)
      rw [Nat.add_zero, List.getElem?_append_right (Nat.le_add_right _ _),
        Nat.add_sub_cancel_left] at hfirst
      exact absurd (Option.some.inj hfirst) (by decide)
  | k + 2 =>
      have hshift : text.length + (k + 2) = text.length + 1 + (0 + 1 + k) := by omega
      rw [hshift] at hocc hj
      exact h.first k (by omega) (occursAt_append_cons.mp (occursAt_append_cons.mp hocc))

/-- The empty line behind the head is the first one. -/
lemma firstAt_emptyLine (text : Bytes) (lines : List HeaderLine) (body : Bytes)
    (htext : OneLine text) (hlines : ∀ line ∈ lines, OneLine line.text) :
    FirstAt [13, 10, 13, 10] ((text ++ linesText lines) ++ ([13, 10, 13, 10] ++ body))
      (text ++ linesText lines).length := by
  induction lines generalizing text with
  | nil =>
      rw [linesText_nil, List.append_nil]
      exact firstAt_of_notMem htext.1 body
  | cons line lines ih =>
      have hline := hlines line (List.mem_cons_self ..)
      have hfirst := ih line.text hline
        fun other hother => hlines other (List.mem_cons_of_mem line hother)
      have hnext : ((line.text ++ linesText lines) ++ ([13, 10, 13, 10] ++ body))[0]?
          ≠ some 13 := by
        obtain ⟨b, more, hb⟩ : ∃ b more, line.text = b :: more :=
          List.exists_cons_of_ne_nil
            (List.append_ne_nil_of_right_ne_nil _ (List.cons_ne_nil _ _))
        rw [hb] at hline ⊢
        intro hcr
        obtain rfl : b = 13 := Option.some.inj hcr
        exact hline.1 (List.mem_cons_self ..)
      have hview : (text ++ linesText (line :: lines)) ++ ([13, 10, 13, 10] ++ body)
          = text ++ 13 :: ([] ++ 10 :: ((line.text ++ linesText lines)
              ++ ([13, 10, 13, 10] ++ body))) := by
        rw [linesText_cons, List.append_assoc, List.append_assoc]
        rfl
      have hlength : (text ++ linesText (line :: lines)).length
          = text.length + 1 + (0 + 1 + (line.text ++ linesText lines).length) := by
        rw [linesText_cons]
        simp only [List.length_append, List.length_cons, List.length_nil]
        omega
      rw [hview, hlength]
      exact hfirst.line htext hnext

/-- The head around one of its lines. -/
lemma HttpHead.Wanted.text_eq {head : HttpHead} {name : Bytes} {before after : List HeaderLine}
    {line : HeaderLine} (hwanted : head.Wanted name before line after) :
    head.text = (head.startLine ++ linesText before)
      ++ ([13, 10] ++ ((line.name ++ 58 :: line.rest) ++ linesText after)) := by
  rw [HttpHead.text, hwanted.lines_eq, linesText_append, linesText_cons, List.append_assoc]
  rfl

lemma linesText_eq (lines : List HeaderLine) :
    linesText lines = [] ∨ ∃ more, linesText lines = [13, 10] ++ more := by
  cases lines with
  | nil => exact Or.inl rfl
  | cons line lines => exact Or.inr ⟨_, linesText_cons line lines⟩

lemma linesText_eq_nil_iff {lines : List HeaderLine} : linesText lines = [] ↔ lines = [] := by
  cases lines with
  | nil => exact ⟨fun _ => rfl, fun _ => rfl⟩
  | cons line lines =>
      rw [linesText_cons]
      simp only [List.cons_append, reduceCtorEq]

/-- Stripping a text that does not begin with white space cuts off what follows its last colon. -/
lemma stripAsciiWhitespace_append_colon {b : UInt8} (hb : asciiIsSpace b = false)
    (text rest : Bytes) :
    stripAsciiWhitespace (b :: text ++ 58 :: rest)
      = b :: text ++ 58 :: rest.rdropWhile asciiIsSpace := by
  have hdrop : (b :: text ++ 58 :: rest).dropWhile asciiIsSpace = b :: text ++ 58 :: rest := by
    rw [List.cons_append, List.dropWhile_cons_of_neg (by rw [hb]; decide)]
  have hcolon : ((58 : UInt8) :: (b :: text).reverse).dropWhile asciiIsSpace
      = 58 :: (b :: text).reverse := List.dropWhile_cons_of_neg (by decide)
  have hreverse : (b :: text ++ 58 :: rest).reverse
      = rest.reverse ++ 58 :: (b :: text).reverse := by
    simp only [List.reverse_append, List.reverse_cons, List.append_assoc, List.cons_append,
      List.nil_append]
  have hend : (rest.reverse ++ 58 :: (b :: text).reverse).dropWhile asciiIsSpace
      = rest.reverse.dropWhile asciiIsSpace ++ 58 :: (b :: text).reverse := by
    rw [List.dropWhile_append, hcolon]
    split
    · rename_i hnil
      rw [List.isEmpty_iff.mp hnil, List.nil_append]
    · rfl
  rw [stripAsciiWhitespace, hdrop, hreverse, hend, List.reverse_append, List.reverse_cons,
    List.reverse_reverse, List.append_assoc]
  rfl

section Views

variable {head : HttpHead} {name : Bytes} {before after : List HeaderLine} {line : HeaderLine}

lemma HttpHead.Wanted.mem (hwanted : head.Wanted name before line after) : line ∈ head.lines := by
  rw [hwanted.lines_eq]
  exact List.mem_append_right _ (List.mem_cons_self ..)

lemma HttpHead.Wanted.lineAt (hwf : head.WellFormed)
    (hwanted : head.Wanted name before line after) :
    LineAt head.text (head.startLine ++ linesText before) line.name line.rest
      (linesText after) where
  view_eq := hwanted.text_eq
  name_line := (hwf.names line hwanted.mem).1
  rest_line := hwf.rests line hwanted.mem
  after_eq := linesText_eq after

/-- The last line of the stripped head. -/
lemma HttpHead.Wanted.lineAt_strip_last (hwf : head.WellFormed)
    (hwanted : head.Wanted name before line []) :
    LineAt (stripAsciiWhitespace head.text) (head.startLine ++ linesText before) line.name
      (line.rest.rdropWhile asciiIsSpace) [] := by
  have hline := hwanted.lineAt hwf
  obtain ⟨b, more, hstart, hb⟩ := hwf.begins
  have htext : head.text
      = b :: (more ++ linesText before ++ ([13, 10] ++ line.name)) ++ 58 :: line.rest := by
    rw [hwanted.text_eq, hstart, linesText_nil, List.append_nil]
    simp only [List.append_assoc, List.cons_append, List.nil_append]
  have hcut : line.rest.rdropWhile asciiIsSpace ⊆ line.rest := (List.rdropWhile_prefix _ _).subset
  refine ⟨?_, hline.name_line, ?_, Or.inl rfl⟩
  · rw [htext, stripAsciiWhitespace_append_colon hb, hstart]
    simp only [List.append_assoc, List.cons_append, List.nil_append, List.append_nil]
  · exact ⟨fun h => hline.rest_line.1 (hcut h), fun h => hline.rest_line.2 (hcut h)⟩

/-- Any other line of the stripped head. -/
lemma HttpHead.Wanted.lineAt_strip {last : HeaderLine} (hwf : head.WellFormed)
    (hwanted : head.Wanted name before line (after ++ [last])) :
    LineAt (stripAsciiWhitespace head.text) (head.startLine ++ linesText before) line.name
      line.rest (linesText after
        ++ ([13, 10] ++ (last.name ++ 58 :: last.rest.rdropWhile asciiIsSpace))) := by
  have hline := hwanted.lineAt hwf
  obtain ⟨b, more, hstart, hb⟩ := hwf.begins
  have hlines : linesText (after ++ [last])
      = linesText after ++ ([13, 10] ++ (last.name ++ 58 :: last.rest)) := by
    rw [linesText_append, linesText_cons, linesText_nil, List.append_nil]
    rfl
  have htext : head.text = b :: (more ++ linesText before ++ ([13, 10] ++
      ((line.name ++ 58 :: line.rest) ++ (linesText after ++ ([13, 10] ++ last.name)))))
      ++ 58 :: last.rest := by
    rw [hwanted.text_eq, hstart, hlines]
    simp only [List.append_assoc, List.cons_append, List.nil_append]
  refine ⟨?_, hline.name_line, hline.rest_line, Or.inr ?_⟩
  · rw [htext, stripAsciiWhitespace_append_colon hb, hstart]
    simp only [List.append_assoc, List.cons_append, List.nil_append]
  · rcases linesText_eq after with hafter | ⟨more, hafter⟩
    · exact ⟨_, by rw [hafter, List.nil_append]⟩
    · exact ⟨_, by rw [hafter, List.append_assoc]⟩

/-- In the view of either caller the line stands where it stands in the head; the last line may
have lost white space. -/
lemma HttpHead.Wanted.exists_lineAt (hwf : head.WellFormed)
    (hwanted : head.Wanted name before line after) {view : Bytes}
    (hview : view ∈ [head.text, stripAsciiWhitespace head.text]) :
    ∃ rest rear, LineAt view (head.startLine ++ linesText before) line.name rest rear ∧
      (rear = [] ↔ after = []) ∧ (after ≠ [] → rest = line.rest) ∧
      rest.length ≤ line.rest.length := by
  rw [List.mem_cons, List.mem_singleton] at hview
  rcases hview with rfl | rfl
  · exact ⟨_, _, hwanted.lineAt hwf, linesText_eq_nil_iff, fun _ => rfl, le_rfl⟩
  · rcases List.eq_nil_or_concat' after with rfl | ⟨front, last, rfl⟩
    · exact ⟨_, _, hwanted.lineAt_strip_last hwf, ⟨fun _ => rfl, fun _ => rfl⟩,
        fun h => absurd rfl h, (List.rdropWhile_prefix _ _).length_le⟩
    · refine ⟨_, _, hwanted.lineAt_strip hwf, ?_, fun _ => rfl, le_rfl⟩
      simp only [List.append_eq_nil_iff, List.cons_append, reduceCtorEq, and_false,
        List.cons_ne_self]

/-! ## Finding the header -/

lemma eq_of_asciiToLower_eq {b c : UInt8} (hc : c < 65) (h : asciiToLower b = c) : b = c := by
  rw [asciiToLower] at h
  split at h
  · rename_i hupper
    subst h
    rw [UInt8.lt_iff_toNat_lt] at hc
    rw [UInt8.le_iff_toNat_le, UInt8.le_iff_toNat_le] at hupper
    rw [UInt8.toNat_add] at hc
    simp only [UInt8.reduceToNat] at hc hupper
    omega
  · exact h

lemma notMem_of_equalsIgnoreCase {c : UInt8} {wanted name : Bytes} (hc : c < 65)
    (hname : equalsIgnoreCase name wanted = true) (hmem : c ∉ name) : c ∉ wanted := by
  intro hwanted
  have hmap : name.map asciiToLower = wanted.map asciiToLower := of_decide_eq_true hname
  have hlower : asciiToLower c = c := by
    rw [asciiToLower, if_neg]
    exact fun h => absurd (UInt8.lt_of_lt_of_le hc h.1) (UInt8.lt_irrefl c)
  have hlowered := List.mem_map_of_mem (f := asciiToLower) hwanted
  rw [hlower, ← hmap, List.mem_map] at hlowered
  obtain ⟨b, hb, heq⟩ := hlowered
  obtain rfl := eq_of_asciiToLower_eq hc heq
  exact hmem hb

lemma HttpHead.Wanted.name_line (hwf : head.WellFormed)
    (hwanted : head.Wanted name before line after) : OneLine name := by
  have hline := (hwf.names line hwanted.mem).1
  constructor
  · exact notMem_of_equalsIgnoreCase (by decide) hwanted.name_eq hline.1
  · exact notMem_of_equalsIgnoreCase (by decide) hwanted.name_eq hline.2

lemma HttpHead.Wanted.length_eq (hwanted : head.Wanted name before line after) :
    line.name.length = name.length := by
  have hmap : line.name.map asciiToLower = name.map asciiToLower :=
    of_decide_eq_true hwanted.name_eq
  simpa only [List.length_map] using congrArg List.length hmap

/-- The empty line is found behind the head. -/
lemma HttpHead.find_emptyLine (hwf : head.WellFormed) (body : Bytes) :
    find [13, 10, 13, 10] (head.text ++ ([13, 10, 13, 10] ++ body)) = some head.text.length := by
  apply find_eq_some_iff.mpr
  apply firstAt_emptyLine _ _ _ hwf.startLine
  intro line hline
  have hname := (hwf.names line hline).1
  have hrest := hwf.rests line hline
  rw [OneLine, HeaderLine.text, List.mem_append, List.mem_append, List.mem_cons, List.mem_cons,
    not_or, not_or, not_or, not_or]
  exact ⟨⟨hname.1, by decide, hrest.1⟩, hname.2, by decide, hrest.2⟩

/-- The header is found in a view: the value is the one of its line, with the white space around it
cut off, and it is a view of that line. -/
def HttpHead.Finds (head : HttpHead) (name : Bytes) (before : List HeaderLine) (line : HeaderLine)
    (view : Bytes) : Prop :=
  httpGetHeaderView view (name ++ [58])
    = some (StringView.strip ⟨head.offset before + name.length + 1, line.rest.length⟩ view) ∧
  httpGetHeader view (name ++ [58]) = some (stripAsciiWhitespace line.rest)

/-- The header is where the search for it ends up: its line is not the last, its name is spelled as
in the search, and the name with a colon is neither in the start line nor in a line before. -/
structure HttpHead.Findable (head : HttpHead) (name : Bytes) (before : List HeaderLine)
    (line : HeaderLine) (after : List HeaderLine) : Prop where
  name_eq : line.name = name
  startLine : ¬ name ++ [58] <:+: head.startLine
  before : ∀ other ∈ before, ¬ name ++ [58] <:+: other.text
  not_last : after ≠ []

lemma HttpHead.Wanted.finds_iff (hwf : head.WellFormed)
    (hwanted : head.Wanted name before line after) {view : Bytes}
    (hview : view ∈ [head.text, stripAsciiWhitespace head.text]) :
    head.Finds name before line view ↔ head.Findable name before line after := by
  obtain ⟨rest, rear, hline, hrear, hrest, hle⟩ := hwanted.exists_lineAt hwf hview
  have hname := hwanted.name_line hwf
  have hlength := hwanted.length_eq
  have hpos : head.offset before + name.length + 1
      = (head.startLine ++ linesText before).length + 2 + name.length + 1 := by
    rw [HttpHead.offset, List.length_append]
  have hbytes : StringView.bytes ⟨head.offset before + name.length + 1, line.rest.length⟩ view
      = rest := by
    apply hline.bytes_eq
    · rw [hpos, hlength]
    · exact hle
    · intro hne
      rw [hrest fun h => hne (hrear.mpr h)]
  have hne : name ++ [58] ≠ [] := List.append_ne_nil_of_right_ne_nil _ (List.cons_ne_nil _ _)
  have hsearch := hline.httpGetHeaderView_iff hname hlength ⟨_, _⟩ hpos hbytes
  rw [hline.firstAt_iff hname hlength, infix_linesText_iff hname.append_colon hne, not_or,
    ne_eq, hrear] at hsearch
  constructor
  · intro hfinds
    obtain ⟨⟨hspelled, hstart, hbefore⟩, hlast⟩ := hsearch.mp hfinds.1
    exact ⟨hspelled, hstart, fun other hother h => hbefore ⟨other, hother, h⟩, hlast⟩
  · rintro ⟨hspelled, hstart, hbefore, hlast⟩
    have hfound := hsearch.mpr ⟨⟨hspelled, hstart, fun ⟨other, hother, h⟩ =>
      hbefore other hother h⟩, hlast⟩
    refine ⟨hfound, ?_⟩
    rw [httpGetHeader_eq_map, hfound, Option.map_some, StringView.bytes_strip, hbytes, hrest hlast]

/-- **Headers.**  In a message with a well-formed head, the header is found in the view of either
caller if and only if it is findable. -/
theorem header_found_iff (hwf : head.WellFormed) (hwanted : head.Wanted name before line after)
    (body : Bytes) :
    ∃ endPos, find [13, 10, 13, 10] (head.text ++ ([13, 10, 13, 10] ++ body)) = some endPos ∧
      ∀ view ∈ [(head.text ++ ([13, 10, 13, 10] ++ body)).take endPos,
          stripAsciiWhitespace ((head.text ++ ([13, 10, 13, 10] ++ body)).take endPos)],
        head.Finds name before line view ↔ head.Findable name before line after := by
  refine ⟨head.text.length, HttpHead.find_emptyLine hwf body, ?_⟩
  rw [List.take_left]
  exact fun view hview => hwanted.finds_iff hwf hview

end Views

/-- `Host: a`. -/
def hostLine : HeaderLine := ⟨ascii "Host".toList, ascii " a".toList⟩

def acceptLine : HeaderLine := ⟨ascii "Accept".toList, ascii " *".toList⟩

/-- A request with some header lines. -/
def requestHead (lines : List HeaderLine) : HttpHead := ⟨ascii "GET / HTTP/1.1".toList, lines⟩

instance (text : Bytes) : Decidable (OneLine text) := inferInstanceAs (Decidable (_ ∧ _))

lemma requestHead_wellFormed {lines : List HeaderLine}
    (hnames : ∀ line ∈ lines, OneLine line.name ∧ 58 ∉ line.name ∧ line.name ≠ [])
    (hrests : ∀ line ∈ lines, OneLine line.rest) : (requestHead lines).WellFormed where
  startLine := (by decide : OneLine (ascii "GET / HTTP/1.1".toList))
  begins := ⟨_, _, rfl, by decide⟩
  names := hnames
  rests := hrests

/-- `Host` before another header. -/
theorem header_found_iff_middle :
    ∃ endPos, find [13, 10, 13, 10] ((requestHead [hostLine, acceptLine]).text
        ++ ([13, 10, 13, 10] ++ [])) = some endPos ∧
      (requestHead [hostLine, acceptLine]).Finds hostLine.name [] hostLine
        (((requestHead [hostLine, acceptLine]).text ++ ([13, 10, 13, 10] ++ [])).take endPos) := by
  have hwf : (requestHead [hostLine, acceptLine]).WellFormed :=
    requestHead_wellFormed (by decide) (by decide)
  have hwanted : (requestHead [hostLine, acceptLine]).Wanted hostLine.name [] hostLine
      [acceptLine] := ⟨rfl, by decide, fun other hother => absurd hother List.not_mem_nil⟩
  obtain ⟨endPos, hend, hviews⟩ := header_found_iff hwf hwanted []
  refine ⟨endPos, hend, (hviews _ (List.mem_cons_self ..)).mpr ?_⟩
  exact ⟨rfl, by decide, fun other hother => absurd hother List.not_mem_nil, List.cons_ne_nil _ _⟩

/-- As the last header `Host` is not found at all. -/
theorem last_header_missed :
    ∃ before line after, (requestHead [acceptLine, hostLine]).WellFormed ∧
      (requestHead [acceptLine, hostLine]).Wanted (ascii "Host".toList) before line after ∧
      parseHttpHostport (stripAsciiWhitespace (requestHead [acceptLine, hostLine]).text) = none ∧
      ¬ (requestHead [acceptLine, hostLine]).Finds (ascii "Host".toList) before line
        (stripAsciiWhitespace (requestHead [acceptLine, hostLine]).text) := by
  have hnone : parseHttpHostport (stripAsciiWhitespace (requestHead [acceptLine, hostLine]).text)
      = none := by decide +kernel
  refine ⟨[acceptLine], hostLine, [], requestHead_wellFormed (by decide) (by decide),
    ⟨rfl, by decide, by decide⟩, hnone, fun hfinds => ?_⟩
  have hsome : parseHttpHostport _ = _ := hfinds.2
  rw [hnone] at hsome
  cases hsome

end Snova
