import Snova.Model.HttpConnect
import Snova.Properties.ReadUntil

/-!
# What a response of the proxy comes to

Whether the client takes the connection depends on the head of the response only, however the
transport cuts it.  What the last read has brought behind the head is lost.
-/

namespace Snova.HttpConnect

variable {request buf stream : Bytes} {s s' : HttpConnect} {response : ReadUntil}

/-! ## The verdict -/

lemma verdict_eq_reading_iff : verdict response = .reading ↔ response.rc = none := by
  rw [verdict]
  split
  · next hrc => exact iff_of_true rfl hrc
  · next endPos hrc =>
      refine iff_of_false (fun h => ?_) (fun h => ?_)
      · split at h
        · cases h
        · split at h
          · cases h
          · cases h
      · rw [hrc] at h
        cases h

/-- A response that has been judged has been read up to the end of its head. -/
lemma exists_of_verdict (h : verdict response = .succeeded ∨ verdict response = .refused) :
    ∃ pos : ℕ, response.rc = some (pos : ℤ) ∧
      (verdict response = .succeeded ↔ isSuccess (response.buf.take pos) = true) := by
  cases hrc : response.rc with
  | none =>
      rw [verdict_eq_reading_iff.mpr hrc] at h
      rcases h with h | h
      · cases h
      · cases h
  | some endPos =>
      simp only [verdict, hrc] at h ⊢
      by_cases hneg : endPos < 0
      · simp only [if_pos hneg] at h
        rcases h with h | h
        · cases h
        · cases h
      · have hnat : ((endPos.toNat : ℕ) : ℤ) = endPos := Int.toNat_of_nonneg (not_lt.mp hneg)
        refine ⟨endPos.toNat, by rw [hnat], ?_⟩
        rw [if_neg hneg]
        split
        · next hstatus => exact iff_of_true rfl hstatus
        · next hstatus => exact iff_of_false (fun hsucceeded => by cases hsucceeded) hstatus

/-! ## The invariant -/

/-- The request has been written. -/
def Asked (s : HttpConnect) : Prop :=
  s.phase = .reading ∨ s.phase = .succeeded ∨ s.phase = .refused

structure Inv (request stream : Bytes) (s : HttpConnect) : Prop where
  bytes : s.reads.flatten ++ s.unread = stream
  early : s.phase = .resolving ∨ s.phase = .connecting ∨ s.phase = .writing → s.reads = []
  sent : Asked s → s.sent = request
  response : Asked s → ReadUntil.After headEnd [] s.reads s.response
  phase : Asked s → s.phase = verdict s.response

lemma headEnd_ne_nil : headEnd ≠ [] := by decide

lemma inv_init (request stream : Bytes) : Inv request stream (init stream) where
  bytes := rfl
  early _ := rfl
  sent h := by simp [Asked, init] at h
  response h := by simp [Asked, init] at h
  phase h := by simp [Asked, init] at h

lemma inv_failed (hbytes : s.reads.flatten ++ s.unread = stream) (hphase : s.phase = .failed) :
    Inv request stream s where
  bytes := hbytes
  early h := by simp [hphase] at h
  sent h := by simp [Asked, hphase] at h
  response h := by simp [Asked, hphase] at h
  phase h := by simp [Asked, hphase] at h

/-- The request has not been written yet. -/
lemma inv_early (hbytes : s.unread = stream) (hreads : s.reads = [])
    (hphase : s.phase = .connecting ∨ s.phase = .writing) : Inv request stream s where
  bytes := by rw [hreads, hbytes, List.flatten_nil, List.nil_append]
  early _ := hreads
  sent h := by rcases hphase with hphase | hphase <;> simp [Asked, hphase] at h
  response h := by rcases hphase with hphase | hphase <;> simp [Asked, hphase] at h
  phase h := by rcases hphase with hphase | hphase <;> simp [Asked, hphase] at h

lemma verdict_ne_early (response : ReadUntil) :
    ¬ (verdict response = .resolving ∨ verdict response = .connecting ∨
      verdict response = .writing) := by
  rw [verdict]
  split
  · decide
  · split
    · decide
    · split
      · decide
      · decide

lemma Inv.unread (h : Inv request stream s)
    (hearly : s.phase = .resolving ∨ s.phase = .connecting ∨ s.phase = .writing) :
    s.unread = stream := by
  rw [← h.bytes, h.early hearly, List.flatten_nil, List.nil_append]

/-- The call returns from `async_write` or from a read. -/
lemma inv_verdict (hbytes : s.reads.flatten ++ s.unread = stream) (hsent : s.sent = request)
    (hresponse : ReadUntil.After headEnd [] s.reads s.response)
    (hphase : s.phase = verdict s.response) : Inv request stream s where
  bytes := hbytes
  early h := absurd (hphase ▸ h) (verdict_ne_early s.response)
  sent _ := hsent
  response _ := hresponse
  phase _ := hphase

lemma step_inv {a : HttpConnectAction} (hbuf : buf ≠ []) (hlen : stream.length < 2 ^ 31)
    (h : Inv request stream s) (hstep : step request buf s a = some s') :
    Inv request stream s' := by
  cases a with
  | resolve ok =>
      simp only [step, Option.ite_none_right_eq_some, Option.some_inj] at hstep
      obtain ⟨hphase, rfl⟩ := hstep
      cases ok with
      | false => exact inv_failed h.bytes rfl
      | true => exact inv_early (h.unread (.inl hphase)) (h.early (.inl hphase)) (.inl rfl)
  | connect ok =>
      simp only [step, Option.ite_none_right_eq_some, Option.some_inj] at hstep
      obtain ⟨hphase, rfl⟩ := hstep
      have hearly : s.phase = .resolving ∨ s.phase = .connecting ∨ s.phase = .writing :=
        .inr (.inl hphase)
      cases ok with
      | false => exact inv_failed h.bytes rfl
      | true => exact inv_early (h.unread hearly) (h.early hearly) (.inr rfl)
  | write n =>
      simp only [step, Option.ite_none_right_eq_some] at hstep
      obtain ⟨⟨hphase, hn⟩, hstep⟩ := hstep
      split at hstep
      · exact Option.some.inj hstep ▸ inv_failed h.bytes rfl
      · next hall =>
          rw [← Option.some.inj hstep]
          refine inv_verdict h.bytes (List.take_of_length_le (not_lt.mp hall)) ?_ rfl
          show ReadUntil.After headEnd [] s.reads (ReadUntil.loop headEnd buf 0)
          rw [h.early (.inr (.inr hphase))]
          exact ReadUntil.after_loop hbuf (Nat.zero_le _) headEnd_ne_nil (by decide)
  | read n =>
      simp only [step, Option.ite_none_right_eq_some] at hstep
      obtain ⟨⟨hphase, hn⟩, hstep⟩ := hstep
      obtain ⟨response, hread, rfl⟩ := Option.map_eq_some_iff.mp hstep
      have hbytes : (s.reads ++ [s.unread.take n]).flatten ++ s.unread.drop n = stream := by
        rw [List.flatten_append, List.flatten_singleton, List.append_assoc,
          List.take_append_drop, h.bytes]
      have hshort : ([] ++ (s.reads ++ [s.unread.take n]).flatten).length < 2 ^ 31 := by
        rw [← hbytes, List.length_append] at hlen
        exact lt_of_le_of_lt (Nat.le_add_right _ _) hlen
      exact inv_verdict hbytes (h.sent (.inl hphase))
        ((h.response (.inl hphase)).onRead headEnd_ne_nil hshort hread) rfl

/-! ## The response -/

/-- The head of the response, in what has been read. -/
lemma Inv.rc_eq (h : Inv request stream s) (hasked : Asked s) (hfailed : s.phase ≠ .failed) :
    s.response.rc = (find headEnd s.reads.flatten).map Nat.cast := by
  have hrc := (h.response hasked).rc_eq
  rw [List.nil_append] at hrc
  split at hrc
  · have hphase := h.phase hasked
    rw [verdict, hrc] at hphase
    exact absurd hphase hfailed
  · exact hrc

/-- **The response of an HTTP proxy.**  The proxy sends `stream`, less than 2^31 bytes, and the
buffer from the pool is not empty.  The transport delivers and fails as it likes.  In every state
reached, with `k` bytes read:

* a client that still waits for the response has written its request, has not read the empty line
  behind the head, and has room for a read;
* a client that has taken or refused the connection has written its request and read that line, and
  what it has made of the response depends on the head only;
* the tunnel begins with the first byte behind the head exactly when the reads end there.  All that
  they have brought behind it is lost. -/
theorem connect_judged_by_head (remoteHost : Bytes) (remotePort : UInt16) (buf stream : Bytes)
    (hbuf : buf ≠ []) (hlen : stream.length < 2 ^ 31) (as : List HttpConnectAction)
    (s : HttpConnect)
    (h : exec (step (connReq remoteHost remotePort) buf) (init stream) as = some s) :
    ∃ k ≤ stream.length, s.unread = stream.drop k ∧
      (s.phase = .reading → s.sent = connReq remoteHost remotePort ∧
        (∀ pos, FirstAt headEnd stream pos → k < pos + headEnd.length) ∧
        s.response.readedLen < s.response.buf.length) ∧
      (s.phase = .succeeded ∨ s.phase = .refused → s.sent = connReq remoteHost remotePort ∧
        ∃ pos, FirstAt headEnd stream pos ∧ pos + headEnd.length ≤ k ∧
          (s.phase = .succeeded ↔ isSuccess (stream.take pos) = true) ∧
          (s.unread = stream.drop (pos + headEnd.length) ↔ k = pos + headEnd.length)) := by
  have hinv := exec_invariant (fun _ _ _ hs hstep => step_inv hbuf hlen hs hstep)
    (inv_init (connReq remoteHost remotePort) stream) h
  have hstream := hinv.bytes
  have hk : s.reads.flatten.length ≤ stream.length := by
    rw [← hstream, List.length_append]
    exact Nat.le_add_right _ _
  have hunread : s.unread = stream.drop s.reads.flatten.length := by
    rw [← hstream, List.drop_left]
  refine ⟨s.reads.flatten.length, hk, hunread, fun hphase => ?_, fun hphase => ?_⟩
  · have hasked : Asked s := .inl hphase
    have hrc := verdict_eq_reading_iff.mp ((hinv.phase hasked).symm.trans hphase)
    refine ⟨hinv.sent hasked, fun pos hpos => ?_, (hinv.response hasked).hasRead.room hrc⟩
    have hnone := ((hinv.response hasked).of_waiting hrc).2
    rw [List.nil_append] at hnone
    by_contra hle
    have hfind := (ReadUntil.find_iff_firstAt_append headEnd_ne_nil s.unread).mpr
      ⟨hstream.symm ▸ hpos, not_lt.mp hle⟩
    rw [hnone] at hfind
    cases hfind
  · have hasked : Asked s := .inr hphase
    have hverdict := hinv.phase hasked
    obtain ⟨pos, hpos, hstatus⟩ := exists_of_verdict (hverdict ▸ hphase)
    have hfailed : s.phase ≠ .failed := by
      rcases hphase with hphase | hphase <;> simp [hphase]
    have hfind : find headEnd s.reads.flatten = some pos := by
      have hrc := hpos.symm.trans (hinv.rc_eq hasked hfailed)
      obtain ⟨pos', hfind, heq⟩ := Option.map_eq_some_iff.mp hrc.symm
      rw [hfind, Nat.cast_inj.mp heq]
    obtain ⟨hfirst, hle⟩ :=
      (ReadUntil.find_iff_firstAt_append headEnd_ne_nil s.unread).mp hfind
    rw [hstream] at hfirst
    refine ⟨hinv.sent hasked, pos, hfirst, hle, ?_, ?_⟩
    · -- the head stands at the front of the buffer
      have hfront := (hinv.response hasked).hasRead.front
      rw [List.nil_append] at hfront
      have hhead : s.response.buf.take pos = stream.take pos := by
        have hpos' : pos ≤ s.reads.flatten.length := le_trans (Nat.le_add_right _ _) hle
        rw [← hstream, List.take_append_of_le_length hpos', ← hfront, List.take_take,
          min_eq_left]
        rw [(hinv.response hasked).hasRead.readedLen, List.nil_append]
        exact hpos'
      rw [hverdict, hstatus, hhead]
    · rw [hunread]
      constructor
      · intro hdrop
        have hlengths := congrArg List.length hdrop
        rw [List.length_drop, List.length_drop] at hlengths
        omega
      · intro heq
        rw [heq]

/-- `HTTP/1.1 200 OK`, the empty line, and the tunnel. -/
def okStream : Bytes := ascii "HTTP/1.1 200 OK".toList ++ headEnd ++ [1, 2, 3, 4]

/-- The empty line is split between two reads, and the second one brings a part of the tunnel. -/
def splitResponse : List HttpConnectAction :=
  [.resolve true, .connect true, .write 91, .read 17, .read 4]

theorem connect_judged_by_head_split :
    ∃ s, exec (step (connReq [97] 80) (List.replicate 32 0)) (init okStream) splitResponse =
        some s ∧
      s.phase = .succeeded ∧ s.unread = [3, 4] ∧
      ∃ pos k, FirstAt headEnd okStream pos ∧ pos + headEnd.length < k ∧
        s.unread = okStream.drop k := by
  have hrun : (exec (step (connReq [97] 80) (List.replicate 32 0)) (init okStream)
      splitResponse).map (fun s => (s.phase, s.unread)) = some (.succeeded, [3, 4]) := by
    decide +kernel
  obtain ⟨s, hs, hfields⟩ := Option.map_eq_some_iff.mp hrun
  obtain ⟨hphase, hunread⟩ := Prod.mk.inj hfields
  obtain ⟨k, -, hk, -, hjudged⟩ := connect_judged_by_head [97] 80 (List.replicate 32 0) okStream
    (by decide) (by decide) splitResponse s hs
  obtain ⟨-, pos, hfirst, hle, -, hiff⟩ := hjudged (.inl hphase)
  refine ⟨s, hs, hphase, hunread, pos, k, hfirst, lt_of_le_of_ne hle fun heq => ?_, hk⟩
  have hpos : pos = 15 := hfirst.unique ⟨by decide, by decide⟩
  have htunnel := hiff.mpr heq.symm
  rw [hunread, hpos] at htunnel
  exact absurd htunnel (by decide)

end Snova.HttpConnect
