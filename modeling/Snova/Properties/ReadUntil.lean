import Snova.Model.ReadUntil
import Snova.Properties.HttpProxy
import Snova.Properties.TrustedNs

/-!
# What `read_until` returns

The delimiter may be split between any number of reads, and the buffer is doubled when it has less
room than the delimiter needs.  The invariant of the loop (`HasRead`) relates the buffer to the
bytes that have been read so far, whatever the reads were, and what is returned depends on these
bytes only.
-/

namespace Snova.ReadUntil

variable {delim bytes data buf : Bytes} {readedLen : ℕ} {s t : ReadUntil}

/-! ## The loop -/

/-- The call has read `bytes`.  As long as it waits there is room for more. -/
structure HasRead (bytes : Bytes) (s : ReadUntil) : Prop where
  readedLen : s.readedLen = bytes.length
  front : s.buf.take s.readedLen = bytes
  notEmpty : s.buf ≠ []
  room : s.rc = none → s.readedLen < s.buf.length

lemma HasRead.le (h : HasRead bytes s) : s.readedLen ≤ s.buf.length := by
  have hlen := congrArg List.length h.front
  rw [List.length_take, ← h.readedLen] at hlen
  omega

/-- Enlarging the buffer keeps what stands in it. -/
lemma hasRead_loop (hbuf : buf ≠ []) (hreaded : readedLen ≤ buf.length) (hdelim : delim ≠ []) :
    HasRead (buf.take readedLen) (loop delim buf readedLen) := by
  have hlen : readedLen = (buf.take readedLen).length := by rw [List.length_take_of_le hreaded]
  have hpos : 0 < buf.length := List.length_pos_of_ne_nil hbuf
  rw [loop]
  cases find delim (buf.take readedLen) with
  | some pos => exact ⟨hlen, rfl, hbuf, fun h => by cases h⟩
  | none =>
      by_cases hrest : buf.length - readedLen < delim.length
      · simp only [if_pos hrest]
        refine ⟨hlen, List.take_append_of_le_length hreaded, ?_, fun _ => ?_⟩
        · exact List.append_ne_nil_of_left_ne_nil hbuf _
        · show readedLen < (buf ++ List.replicate buf.length 0).length
          rw [List.length_append, List.length_replicate]
          omega
      · simp only [if_neg hrest]
        refine ⟨hlen, rfl, hbuf, fun _ => ?_⟩
        have hdelimLen := List.length_pos_of_ne_nil hdelim
        show readedLen < buf.length
        omega

/-- What is returned without a read. -/
lemma loop_rc (buf : Bytes) (hlen : readedLen < 2 ^ 31) (hdelim : delim ≠ []) :
    (loop delim buf readedLen).rc = (find delim (buf.take readedLen)).map Nat.cast := by
  rw [loop]
  cases hfind : find delim (buf.take readedLen) with
  | none => rfl
  | some pos =>
      have hpos := (find_eq_some_iff.mp hfind).occurs.length_le hdelim
      rw [List.length_take] at hpos
      show some (toInt32 pos) = some (pos : ℤ)
      rw [toInt32_of_bounds (by omega)]

/-- A read of the socket: there are data, and the loop goes on with them, or there are none. -/
lemma onRead_cases (h : onRead delim s data = some t) :
    s.rc = none ∧ data.length ≤ s.buf.length - s.readedLen ∧
      (data = [] ∧ t = { s with rc := some (-1) } ∨
        data ≠ [] ∧
          t = loop delim (s.buf.take s.readedLen ++ data ++ s.buf.drop (s.readedLen + data.length))
            (s.readedLen + data.length)) := by
  rw [onRead] at h
  dsimp only at h
  split at h
  · next hread =>
      refine ⟨hread.1, hread.2, ?_⟩
      split at h
      · next hpos => exact Or.inr ⟨List.ne_nil_of_length_pos hpos, (Option.some.inj h).symm⟩
      · next hzero =>
          have hnil : data = [] := List.eq_nil_of_length_eq_zero (Nat.eq_zero_of_not_pos hzero)
          exact Or.inl ⟨hnil, (Option.some.inj h).symm⟩
  · cases h

/-! ## The handlers' `readUntil` -/

/-- What `readUntil` returns for the rest of the segments. -/
def rest (delim : Bytes) (s : ReadUntil) (later : List Bytes) : Option (ℕ × Bytes × List Bytes) :=
  match s.rc with
  | none => readUntil ⟨true⟩ delim (s.buf.take s.readedLen) later
  | some rc => if rc < 0 then none else some (rc.toNat, s.buf.take s.readedLen, later)

lemma rest_of_find_none (h : find delim (s.buf.take s.readedLen) = none) (hrc : s.rc = none)
    (data : Bytes) (later : List Bytes) :
    rest delim s (data :: later) =
      if data = [] then none
      else readUntil ⟨true⟩ delim (s.buf.take s.readedLen ++ data) later := by
  rw [rest, hrc]
  show readUntil ⟨true⟩ delim (s.buf.take s.readedLen) (data :: later) = _
  rw [readUntil, h]
  by_cases hdata : data = []
  · rw [if_pos hdata]
    exact if_neg fun hopen => hopen.2 hdata
  · rw [if_neg hdata]
    exact if_pos ⟨rfl, hdata⟩

/-- A call that has read `bytes` and returns as `find` says. -/
lemma rest_of_rc (h : HasRead bytes s) (hrc : s.rc = (find delim bytes).map Nat.cast)
    (later : List Bytes) : rest delim s later = readUntil ⟨true⟩ delim bytes later := by
  rw [rest, hrc, h.front]
  cases hfind : find delim bytes with
  | none => rfl
  | some pos =>
      show (if (pos : ℤ) < 0 then none else some ((pos : ℤ).toNat, bytes, later)) = _
      rw [if_neg (by omega), Int.toNat_natCast]
      cases later with
      | nil => rw [readUntil, hfind, Option.map_some]
      | cons segment later => rw [readUntil, hfind]

/-! ## Any number of reads -/

/-- Where a call that began with `first` in its buffer is after some reads. -/
structure After (delim first : Bytes) (reads : List Bytes) (s : ReadUntil) : Prop where
  hasRead : HasRead (first ++ reads.flatten) s
  rc_eq : s.rc =
    if [] ∈ reads then some (-1) else (find delim (first ++ reads.flatten)).map Nat.cast
  not_found : [] ∈ reads → find delim (first ++ reads.flatten) = none
  summary : ∀ later, readUntil ⟨true⟩ delim first (reads ++ later) = rest delim s later

variable {first : Bytes} {reads : List Bytes}

lemma after_loop (hbuf : buf ≠ []) (hreaded : readedLen ≤ buf.length) (hdelim : delim ≠ [])
    (hlen : readedLen < 2 ^ 31) :
    After delim (buf.take readedLen) [] (loop delim buf readedLen) where
  hasRead := by
    rw [List.flatten_nil, List.append_nil]
    exact hasRead_loop hbuf hreaded hdelim
  rc_eq := by
    rw [if_neg List.not_mem_nil, List.flatten_nil, List.append_nil]
    exact loop_rc buf hlen hdelim
  not_found h := by cases h
  summary later :=
    (rest_of_rc (hasRead_loop hbuf hreaded hdelim) (loop_rc buf hlen hdelim) later).symm

/-- A call that waits has seen data in every read and no delimiter. -/
lemma After.of_waiting (h : After delim first reads s) (hrc : s.rc = none) :
    [] ∉ reads ∧ find delim (first ++ reads.flatten) = none := by
  have heq := h.rc_eq
  rw [hrc] at heq
  by_cases hfailed : [] ∈ reads
  · rw [if_pos hfailed] at heq
    cases heq
  · rw [if_neg hfailed] at heq
    exact ⟨hfailed, Option.map_eq_none_iff.mp heq.symm⟩

/-- One more read. -/
lemma After.onRead (h : After delim first reads s) (hdelim : delim ≠ [])
    (hlen : (first ++ (reads ++ [data]).flatten).length < 2 ^ 31)
    (hread : onRead delim s data = some t) : After delim first (reads ++ [data]) t := by
  obtain ⟨hrc, hfits, hcases⟩ := onRead_cases hread
  obtain ⟨hall, hnone⟩ := h.of_waiting hrc
  have hle := h.hasRead.le
  have hbytes : first ++ (reads ++ [data]).flatten = first ++ reads.flatten ++ data := by
    rw [List.flatten_append, List.flatten_singleton, List.append_assoc]
  rw [hbytes] at hlen
  have hsummary : ∀ later, readUntil ⟨true⟩ delim first (reads ++ [data] ++ later)
      = if data = [] then none
        else readUntil ⟨true⟩ delim (first ++ reads.flatten ++ data) later := by
    intro later
    rw [← List.append_cons, h.summary,
      rest_of_find_none (h.hasRead.front.symm ▸ hnone) hrc data later, h.hasRead.front]
  rcases hcases with ⟨rfl, rfl⟩ | ⟨hdata, rfl⟩
  · rw [List.append_nil] at hbytes
    have hmem : [] ∈ reads ++ [[]] := List.mem_append_right _ List.mem_cons_self
    refine ⟨?_, ?_, fun _ => hbytes ▸ hnone, fun later => ?_⟩
    · rw [hbytes]
      exact ⟨h.hasRead.readedLen, h.hasRead.front, h.hasRead.notEmpty, fun hwait => by cases hwait⟩
    · rw [if_pos hmem]
    · rw [hsummary later, if_pos rfl]
      rfl
  · have hfront := h.hasRead.front
    have hmem : [] ∉ reads ++ [data] := by
      rw [List.mem_append, List.mem_singleton]
      rintro (hmem | rfl)
      · exact hall hmem
      · exact hdata rfl
    set buf := s.buf.take s.readedLen ++ data ++ s.buf.drop (s.readedLen + data.length) with hbuf
    have hnew : s.readedLen + data.length = (first ++ reads.flatten ++ data).length := by
      rw [List.length_append, ← h.hasRead.readedLen]
    have htake : buf.take (s.readedLen + data.length) = first ++ reads.flatten ++ data := by
      rw [hbuf, hfront, hnew, List.take_left]
    have hreaded : s.readedLen + data.length ≤ buf.length := by
      rw [hbuf, hfront, List.length_append, hnew]
      exact Nat.le_add_right _ _
    have hne : buf ≠ [] := by
      rw [hbuf]
      exact List.append_ne_nil_of_left_ne_nil (List.append_ne_nil_of_right_ne_nil _ hdata) _
    have hloop := hasRead_loop hne hreaded hdelim
    have hrcLoop := loop_rc buf (hnew ▸ hlen) hdelim
    rw [htake] at hloop hrcLoop
    refine ⟨hbytes ▸ hloop, ?_, fun hfailed => absurd hfailed hmem, fun later => ?_⟩
    · rw [if_neg hmem, hbytes]
      exact hrcLoop
    · rw [hsummary later, if_neg hdata, rest_of_rc hloop hrcLoop]

/-- `find` in what has been read, and the first occurrence in the whole stream. -/
lemma find_iff_firstAt_append (hdelim : delim ≠ []) (unread : Bytes) {pos : ℕ} :
    find delim bytes = some pos ↔
      FirstAt delim (bytes ++ unread) pos ∧ pos + delim.length ≤ bytes.length := by
  rw [find_eq_some_iff]
  constructor
  · exact fun h => ⟨h.append hdelim unread, h.occurs.length_le hdelim⟩
  · exact fun h => h.1.of_append h.2

/-- After a run of reads. -/
lemma after_exec (hbuf : buf ≠ []) (hreaded : readedLen ≤ buf.length) (hdelim : delim ≠ [])
    (hlen : (buf.take readedLen ++ reads.flatten).length < 2 ^ 31)
    (h : exec (onRead delim) (loop delim buf readedLen) reads = some s) :
    After delim (buf.take readedLen) reads s := by
  have hstep : ∀ done s data t,
      ((buf.take readedLen ++ done.flatten).length < 2 ^ 31 →
        After delim (buf.take readedLen) done s) → onRead delim s data = some t →
      (buf.take readedLen ++ (done ++ [data]).flatten).length < 2 ^ 31 →
        After delim (buf.take readedLen) (done ++ [data]) t := by
    intro done s data t hdone hread hlen'
    refine (hdone ?_).onRead hdelim hlen' hread
    rw [List.flatten_append, ← List.append_assoc, List.length_append] at hlen'
    omega
  refine exec_invariant_actions hstep (fun hlen' => ?_) h hlen
  rw [List.flatten_nil, List.append_nil, List.length_take_of_le hreaded] at hlen'
  exact after_loop hbuf hreaded hdelim hlen'

/-- **Refinement.**  The handlers' `readUntil` goes through the segments as the loop goes through
its reads. -/
theorem readUntil_eq_rest (hbuf : buf ≠ []) (hreaded : readedLen ≤ buf.length) (hdelim : delim ≠ [])
    (hlen : (buf.take readedLen ++ reads.flatten).length < 2 ^ 31)
    (h : exec (onRead delim) (loop delim buf readedLen) reads = some s) (later : List Bytes) :
    readUntil ⟨true⟩ delim (buf.take readedLen) (reads ++ later) = rest delim s later :=
  (after_exec hbuf hreaded hdelim hlen h).summary later

/-- **`read_until`.**  The buffer is not empty and may hold bytes already, the delimiter is not
empty, and the stream, of which `unread` has not been read yet, has less than 2^31 bytes.  After any
reads the buffer begins with all the bytes that have been read.  A position is returned as soon as
these bytes contain the delimiter, and it is where the delimiter stands first in the stream; -1 is
returned when a read has had no data before that.  There is room for every read. -/
theorem read_until_spec (unread : Bytes) (hbuf : buf ≠ []) (hreaded : readedLen ≤ buf.length)
    (hdelim : delim ≠ []) (hlen : (buf.take readedLen ++ reads.flatten ++ unread).length < 2 ^ 31)
    (h : exec (onRead delim) (loop delim buf readedLen) reads = some s) :
    s.readedLen = (buf.take readedLen ++ reads.flatten).length ∧
      s.buf.take s.readedLen = buf.take readedLen ++ reads.flatten ∧
      (∀ pos : ℕ, s.rc = some (pos : ℤ) ↔
        FirstAt delim (buf.take readedLen ++ reads.flatten ++ unread) pos ∧
          pos + delim.length ≤ s.readedLen) ∧
      (s.rc = some (-1) ↔ [] ∈ reads) ∧
      (∀ rc, s.rc = some rc → -1 ≤ rc) ∧
      (s.rc = none → s.readedLen < s.buf.length) := by
  have hread : (buf.take readedLen ++ reads.flatten).length < 2 ^ 31 := by
    rw [List.length_append] at hlen
    omega
  have hafter := after_exec hbuf hreaded hdelim hread h
  refine ⟨hafter.hasRead.readedLen, hafter.hasRead.front, fun pos => ?_, ?_, fun rc hrc => ?_,
    hafter.hasRead.room⟩
  · rw [hafter.hasRead.readedLen, ← find_iff_firstAt_append hdelim unread, hafter.rc_eq]
    by_cases hfailed : [] ∈ reads
    · rw [if_pos hfailed, hafter.not_found hfailed]
      refine iff_of_false (fun heq => ?_) (fun heq => by cases heq)
      have hneg := Option.some.inj heq
      omega
    · rw [if_neg hfailed, Option.map_eq_some_iff]
      simp only [Nat.cast_inj, exists_eq_right]
  · rw [hafter.rc_eq]
    by_cases hfailed : [] ∈ reads
    · rw [if_pos hfailed]
      exact iff_of_true rfl hfailed
    · rw [if_neg hfailed]
      refine iff_of_false (fun heq => ?_) hfailed
      obtain ⟨pos, -, hneg⟩ := Option.map_eq_some_iff.mp heq
      omega
  · rw [hafter.rc_eq] at hrc
    by_cases hfailed : [] ∈ reads
    · rw [if_pos hfailed] at hrc
      exact (Option.some.inj hrc).le
    · rw [if_neg hfailed] at hrc
      obtain ⟨pos, -, rfl⟩ := Option.map_eq_some_iff.mp hrc
      omega

/-- The delimiter is split between two reads, and the buffer is enlarged before the first. -/
theorem read_until_spec_split :
    ∃ s, exec (onRead [13, 10]) (loop [13, 10] [65, 0] 1) [[13], [10]] = some s ∧
      s.buf.take s.readedLen = [65, 13, 10] ∧ s.rc = some 1 := by
  have hrun : exec (onRead [13, 10]) (loop [13, 10] [65, 0] 1) [[13], [10]]
      = some ⟨[65, 13, 10, 0], 3, some 1⟩ := by decide +kernel
  have hspec := read_until_spec [66] (by decide) (by decide) (by decide) (by decide) hrun
  exact ⟨_, hrun, hspec.2.1, (hspec.2.2.1 1).mpr ⟨⟨by decide, by decide⟩, by decide⟩⟩

end Snova.ReadUntil
