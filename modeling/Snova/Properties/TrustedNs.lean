import Snova.Model.TrustedNs

/-!
# Answers of the trusted name server

Two questions about `trusted_ns_loop`.  Does it stay inside its buffer?  The length a message
announces is compared with nothing but `buffer_pos`, so a message that is too large is read over
the end (`long_message_overruns`).  If every message that is announced fits, no access leaves the
buffer and no answer is passed on before it is complete (`accesses_inside`).

Does it pass every DNS over TLS message on as soon as it is complete, however the stream is cut?
The messages it passes on are always those that were sent, in order and with their bytes; but
only one of them for each read, so a second complete message waits for the next read
(`second_message_waits`).  It does not wait if and only if no read of the main loop completes two
messages (`messages_delivered_iff`).
-/

namespace Snova

/-! ## Lengths -/

lemma toInt32_of_bounds {n : ℤ} (h : -2 ^ 31 ≤ n ∧ n < 2 ^ 31) : toInt32 n = n := by
  rw [toInt32]
  apply Int.bmod_eq_of_le <;> omega

/-- For a message that fits a buffer of less than 2 GiB the conversions change nothing, but that
`answer_len` may be cut to 16 bits. -/
lemma nsAnswer_spec {https : Bool} {view : Bytes} {size pos offset contentLen : ℕ}
    (hsize : size < 2 ^ 31) (hpos : pos ≤ size) (hfits : offset + max contentLen 2 ≤ size)
    (hheader : nsHeader https view = .found offset contentLen) :
    (nsAnswer https pos offset contentLen).offset = offset ∧
      (nsAnswer https pos offset contentLen).len ≤ contentLen ∧
      (nsAnswer https pos offset contentLen).rest = offset + contentLen - pos := by
  cases https with
  | true =>
      have hexpect : toInt32 (offset + contentLen) = offset + contentLen :=
        toInt32_of_bounds (by omega)
      simp only [nsAnswer, dohAnswer, if_true, hexpect]
      exact ⟨Nat.mod_eq_of_lt (by omega), Nat.mod_le _ _, toInt32_of_bounds (by omega)⟩
  | false =>
      simp only [nsHeader, dotHeader, Bool.false_eq_true, if_false] at hheader
      split at hheader
      · cases hheader
      · obtain ⟨rfl, rfl⟩ := NsHeader.found.inj hheader
        simp only [nsAnswer, dotAnswer, Bool.false_eq_true, if_false]
        refine ⟨trivial, Nat.le_refl _, ?_⟩
        rw [toInt32_of_bounds (by omega)]
        omega

namespace TrustedNs

variable {size : ℕ} {s s' : TrustedNs size}

section Append

variable (s : TrustedNs size) {pos : ℕ} {data : Bytes} (h : pos + data.length ≤ size)

@[simp] lemma append_https : (s.append pos data h).https = s.https := rfl

@[simp] lemma append_bufferPos : (s.append pos data h).bufferPos = pos + data.length := rfl

@[simp] lemma append_responses : (s.append pos data h).responses = s.responses := rfl

end Append

lemma view_append (s : TrustedNs size) {data : Bytes} (h : s.bufferPos + data.length ≤ size) :
    (s.append s.bufferPos data h).view = s.view ++ data :=
  s.buffer.slice_store _ _ h

lemma length_view (s : TrustedNs size) : s.view.length = s.bufferPos :=
  s.buffer.length_slice (by have := s.fits; omega)

/-- What a step does. -/
lemma step_cases {a : NsAction} (h : s.step a = some s') :
    (∃ ok, a = .connect ok ∧ s.phase = .connecting ∧
        s' = if ok then { s with bufferPos := 0, fits := Nat.zero_le _, phase := .reading }
          else s) ∨
      (∃ data, ∃ hdata : s.bufferPos + data.length ≤ size, a = .read data ∧ s.phase = .reading ∧
        s' = if data = [] then { s with phase := .connecting }
          else (s.append s.bufferPos data hdata).afterRead) ∨
      (∃ data pos rest fits answer, ∃ hdata : data.length ≤ rest, a = .read data ∧
        s.phase = .readingRest pos rest fits answer ∧
        s' = if data.length = rest then (s.append pos data (pos_add_le fits hdata)).forward answer
          else { s with
            buffer := s.buffer.store pos data (pos_add_le fits hdata)
            phase := .readingRest (pos + data.length) (rest - data.length)
              (rest_fits fits hdata) answer }) ∨
      (a = .error ∧ s' = { s with phase := .connecting }) := by
  cases a with
  | connect ok =>
      simp only [step] at h
      split at h
      · next hphase => exact .inl ⟨ok, rfl, hphase, (Option.some.inj h).symm⟩
      · cases h
  | read data =>
      simp only [step] at h
      split at h
      · next hphase =>
          split at h
          · next hdata =>
              exact .inr (.inl ⟨data, hdata, rfl, hphase, (Option.some.inj h).symm⟩)
          · cases h
      · next pos rest fits answer hphase =>
          split at h
          · next hdata =>
              exact .inr (.inr (.inl ⟨data, pos, rest, fits, answer, hdata, rfl, hphase,
                (Option.some.inj h).symm⟩))
          · cases h
      · cases h
  | error =>
      simp only [step] at h
      split at h
      · exact .inr (.inr (.inr ⟨rfl, (Option.some.inj h).symm⟩))
      · exact .inr (.inr (.inr ⟨rfl, (Option.some.inj h).symm⟩))
      · cases h

/-! ## Staying inside the buffer -/

/-- If the main loop finds the header of a message after the read, the message fits the buffer,
and so do the two bytes of a transaction id. -/
def AnnouncedFits (s : TrustedNs size) : NsAction → Prop
  | .read data =>
      match s.phase with
      | .reading => ∀ offset contentLen,
          nsHeader s.https (s.view ++ data) = .found offset contentLen →
            offset + max contentLen 2 ≤ size
      | _ => True
  | _ => True

/-- No access has left the buffer and every answer was complete when it was passed on. -/
structure Inside (s : TrustedNs size) : Prop where
  phase : s.phase ≠ .overrun
  complete : ∀ r ∈ s.responses, r.offset + r.len ≤ r.bufferPos

/-- `read_exact` reads the rest of an answer that fits. -/
structure RestFits (s : TrustedNs size) : Prop where
  inside : s.Inside
  rest : ∀ pos rest fits answer, s.phase = .readingRest pos rest fits answer →
    answer.offset + 2 ≤ size ∧ answer.offset + answer.len ≤ pos + rest

/-- Nothing is left to read while the loop waits for the connection or for a message. -/
lemma RestFits.of_waiting (hphase : s.phase = .connecting ∨ s.phase = .reading)
    (hcomplete : ∀ r ∈ s.responses, r.offset + r.len ≤ r.bufferPos) : s.RestFits := by
  constructor
  · refine ⟨fun hoverrun => ?_, hcomplete⟩
    rw [hoverrun] at hphase
    rcases hphase with h | h
    · cases h
    · cases h
  · intro pos rest fits answer hrest
    rw [hrest] at hphase
    rcases hphase with h | h
    · cases h
    · cases h

lemma forward_restFits {answer : NsAnswer}
    (hcomplete : ∀ r ∈ s.responses, r.offset + r.len ≤ r.bufferPos)
    (htxid : answer.offset + 2 ≤ size) (hlen : answer.offset + answer.len ≤ s.bufferPos) :
    (s.forward answer).RestFits := by
  have hall : ∀ r ∈ s.responses ++ [⟨s.buffer.slice answer.offset 2,
      s.buffer.slice answer.offset answer.len, answer.offset, answer.len, s.bufferPos⟩],
      r.offset + r.len ≤ r.bufferPos := by
    intro r hr
    rcases List.mem_append.mp hr with hr | hr
    · exact hcomplete r hr
    · rw [List.mem_singleton.mp hr]
      exact hlen
  have hfits := s.fits
  rw [forward, if_pos ⟨htxid, by omega⟩]
  split
  · exact .of_waiting (.inr rfl) hall
  · exact .of_waiting (.inr rfl) hall

lemma afterRead_restFits (hsize : size < 2 ^ 31)
    (hcomplete : ∀ r ∈ s.responses, r.offset + r.len ≤ r.bufferPos)
    (hfits : ∀ offset contentLen, nsHeader s.https s.view = .found offset contentLen →
      offset + max contentLen 2 ≤ size) : s.afterRead.RestFits := by
  rw [afterRead]
  split
  · exact .of_waiting (.inr rfl) hcomplete
  · exact .of_waiting (.inl rfl) hcomplete
  · next offset contentLen hheader =>
      have hmsg := hfits offset contentLen hheader
      obtain ⟨hoffset, hlen, hrest⟩ := nsAnswer_spec hsize s.fits hmsg hheader
      simp only
      split
      · next hpos =>
          rw [dif_pos (by omega)]
          refine ⟨⟨fun hphase => (by cases hphase), hcomplete⟩, ?_⟩
          intro pos rest fits answer hphase
          obtain ⟨rfl, rfl, rfl⟩ := NsPhase.readingRest.inj hphase
          omega
      · exact forward_restFits hcomplete (by omega) (by omega)

lemma step_restFits {a : NsAction} (hsize : size < 2 ^ 31) (h : s.RestFits)
    (hfits : s.AnnouncedFits a) (hstep : s.step a = some s') : s'.RestFits := by
  have hcomplete := h.inside.complete
  obtain ⟨ok, rfl, hphase, rfl⟩ | ⟨data, hdata, rfl, hphase, rfl⟩ |
    ⟨data, pos, rest, fits, answer, hdata, rfl, hphase, rfl⟩ | ⟨rfl, rfl⟩ := step_cases hstep
  · split
    · exact .of_waiting (.inr rfl) hcomplete
    · exact h
  · split
    · exact .of_waiting (.inl rfl) hcomplete
    · refine afterRead_restFits hsize hcomplete ?_
      rw [view_append]
      simpa only [AnnouncedFits, hphase, append_https] using hfits
  · obtain ⟨htxid, hlen⟩ := h.rest pos rest fits answer hphase
    split
    · next hdone =>
        refine forward_restFits hcomplete htxid ?_
        rw [append_bufferPos, hdone]
        exact hlen
    · refine ⟨⟨fun hphase => (by cases hphase), hcomplete⟩, ?_⟩
      intro pos' rest' fits' answer' hphase'
      obtain ⟨rfl, rfl, rfl⟩ := NsPhase.readingRest.inj hphase'
      omega
  · exact .of_waiting (.inl rfl) hcomplete

/-- **The loop stays inside its buffer while the announced messages fit it.**  In every run, with
DNS over TLS or HTTPS, whatever the server sends, however it is cut and however often the
connection fails: if every message whose header the main loop finds fits the buffer, no access
leaves the buffer, and every answer passed on was complete. -/
theorem accesses_inside (hsize : size < 2 ^ 31) (https : Bool) (buffer : Region UInt8 size)
    (as : List NsAction) (s : TrustedNs size)
    (hfits : Along step AnnouncedFits (init https buffer) as)
    (h : exec step (init https buffer) as = some s) : s.Inside := by
  have hinit : (init https buffer).RestFits := .of_waiting (.inr rfl) fun r hr => by cases hr
  have hinv := exec_invariant_along
    (fun _ _ _ hs hC hstep => step_restFits hsize hs hC hstep) hinit hfits h
  exact hinv.inside

/-- A buffer as `get_iobuf` gives it. -/
def freshBuffer : Region UInt8 8448 := ⟨List.replicate 8448 0, List.length_replicate⟩

/-- An answer of 12 bytes is read, in two pieces. -/
theorem accesses_inside_two_pieces :
    ∃ s, exec step (init false freshBuffer)
        [.read (0 :: 12 :: List.replicate 11 7), .read [7]] = some s ∧ s.Inside := by
  have hfits : Along step AnnouncedFits (init false freshBuffer)
      [.read (0 :: 12 :: List.replicate 11 7), .read [7]] := by
    refine ⟨?_, fun s hs => ⟨?_, fun _ _ => trivial⟩⟩
    · intro offset contentLen hheader
      obtain ⟨rfl, rfl⟩ : 2 = offset ∧ 12 = contentLen := NsHeader.found.inj hheader
      decide
    · obtain rfl := Option.some.inj hs
      trivial
  obtain ⟨s, hs⟩ : ∃ s, exec step (init false freshBuffer)
      [.read (0 :: 12 :: List.replicate 11 7), .read [7]] = some s := ⟨_, rfl⟩
  exact ⟨s, hs, accesses_inside (by decide) false freshBuffer _ s hfits hs⟩

/-- The length prefix announces 65535 bytes: the rest of the message is read over the end of a
buffer of 8448 bytes. -/
theorem long_message_overruns :
    ∃ s, exec step (init false freshBuffer) [.read (255 :: 255 :: List.replicate 10 0)] = some s ∧
      ¬ s.Inside := by
  refine ⟨_, rfl, ?_⟩
  intro h
  exact h.phase rfl

end TrustedNs

/-! ## DNS over TLS messages -/

/-- A message with its length prefix. -/
def dotEncode (m : Bytes) : Bytes := toBE 2 m.length ++ m

/-- Messages one after the other. -/
def dotStream (ms : List Bytes) : Bytes := ms.flatMap dotEncode

@[simp] lemma length_dotEncode (m : Bytes) : (dotEncode m).length = m.length + 2 := by
  rw [dotEncode, List.length_append, length_toBE, Nat.add_comm]

lemma take_two_dotEncode (m rest : Bytes) : (dotEncode m ++ rest).take 2 = toBE 2 m.length := by
  rw [dotEncode, List.append_assoc]
  exact List.take_left' (length_toBE _ _)

/-- A complete message at the front. -/
def Complete (m bs : Bytes) : Prop := m.length < 2 ^ 16 ∧ dotEncode m <+: bs

/-- The front of a stream is the front of its first message. -/
lemma ofBE_take_two {m : Bytes} {ms : List Bytes} {v : Bytes} (hm : m.length < 2 ^ 16)
    (hv : v <+: dotStream (m :: ms)) (hlen : 2 ≤ v.length) : ofBE (v.take 2) = m.length := by
  have htake : v.take 2 = toBE 2 m.length := by
    rw [(List.prefix_iff_eq_take.mp hv), List.take_take, Nat.min_eq_left hlen, dotStream,
      List.flatMap_cons, take_two_dotEncode]
  rw [htake, ofBE_toBE]
  exact Nat.mod_eq_of_lt hm

/-- The prefix tells where a message ends. -/
lemma dotEncode_append_inj {m m' rest rest' : Bytes} (hm : m.length < 2 ^ 16)
    (hm' : m'.length < 2 ^ 16) (h : dotEncode m ++ rest = dotEncode m' ++ rest') :
    m = m' ∧ rest = rest' := by
  rw [dotEncode, dotEncode, List.append_assoc, List.append_assoc] at h
  obtain ⟨hlength, hrest⟩ := List.append_inj h (by rw [length_toBE, length_toBE])
  exact List.append_inj hrest (toBE_injective hm hm' hlength)

/-- A complete message at the front of a stream is its first. -/
lemma complete_stream {ms : List Bytes} (hms : ∀ m ∈ ms, m.length < 2 ^ 16) {m v : Bytes}
    (hv : v <+: dotStream ms) (hm : Complete m v) : ∃ ms', ms = m :: ms' := by
  obtain ⟨hlt, hpre⟩ := hm
  obtain ⟨rest, hrest⟩ := hpre.trans hv
  cases ms with
  | nil =>
      have hnil := congrArg List.length hrest
      rw [List.length_append, length_dotEncode, dotStream, List.flatMap_nil,
        List.length_nil] at hnil
      omega
  | cons m' ms' =>
      obtain ⟨rfl, -⟩ := dotEncode_append_inj hlt (hms m' List.mem_cons_self) hrest
      exact ⟨ms', rfl⟩

/-- As long as the first message of a stream has not arrived whole, nothing is complete. -/
lemma not_complete_of_short {ms : List Bytes} (hms : ∀ m ∈ ms, m.length < 2 ^ 16) {v : Bytes}
    (hv : v <+: dotStream ms) (hshort : ∀ m ∈ ms.head?, v.length < m.length + 2) :
    ¬ ∃ m, Complete m v := by
  rintro ⟨m, hm⟩
  obtain ⟨ms', rfl⟩ := complete_stream hms hv hm
  have hlt := hshort m rfl
  have hle := hm.2.length_le
  rw [length_dotEncode] at hle
  omega

namespace TrustedNs

variable {size : ℕ} {s s' : TrustedNs size} {ms : List Bytes}

/-- The messages that can arrive: a DNS header at least, and not too large for the buffer. -/
def Receivable (size : ℕ) (ms : List Bytes) : Prop :=
  ∀ m ∈ ms, 12 ≤ m.length ∧ m.length < 2 ^ 16 ∧ m.length + 2 ≤ size

/-- The loop on a connection that has delivered `received` of the stream of `ms`: a first part of
the messages has been passed on, and the bytes behind them are in the buffer.  In `read_exact` the
buffer holds the beginning of one more message. -/
structure InStream (ms : List Bytes) (received : Bytes) (s : TrustedNs size) : Prop where
  dot : s.https = false
  split : ∃ sent todo, ms = sent ++ todo ∧ s.responses.map NsResponse.payload = sent ∧
    match s.phase with
    | .reading => received = dotStream sent ++ s.view
    | .readingRest pos rest _ answer =>
        0 < rest ∧ received = dotStream sent ++ s.buffer.slice 0 pos ∧
          ∃ m todo', todo = m :: todo' ∧ pos + rest = m.length + 2 ∧ answer.offset = 2 ∧
            answer.len = m.length ∧ answer.chunkLen = m.length + 2
    | _ => False

/-- A complete message is passed on with its bytes, and what follows it stays. -/
lemma forward_message {m rest : Bytes} {answer : NsAnswer} (hm : 12 ≤ m.length)
    (hview : s.view = dotEncode m ++ rest) (hoffset : answer.offset = 2)
    (hlen : answer.len = m.length) (hchunk : answer.chunkLen = m.length + 2) :
    (s.forward answer).https = s.https ∧ (s.forward answer).phase = .reading ∧
      (s.forward answer).responses.map NsResponse.payload =
        s.responses.map NsResponse.payload ++ [m] ∧
      (s.forward answer).view = rest := by
  have hpos : s.bufferPos = m.length + 2 + rest.length := by
    rw [← length_view, hview, List.length_append, length_dotEncode]
  have hfits := s.fits
  have hpayload : s.buffer.slice answer.offset answer.len = m := by
    rw [s.buffer.slice_of_front (n := s.bufferPos) (by omega), ← view, hview, dotEncode,
      List.append_assoc, hoffset, hlen, List.drop_left' (length_toBE _ _), List.take_left]
  have hrest : s.buffer.slice answer.chunkLen (s.bufferPos - answer.chunkLen) = rest := by
    rw [s.buffer.slice_of_front (n := s.bufferPos) (by omega), ← view, hview,
      List.drop_left' (by rw [length_dotEncode, hchunk]), List.take_of_length_le (by omega)]
  rw [forward, if_pos ⟨by omega, by omega⟩]
  split
  · refine ⟨rfl, rfl, by rw [List.map_append, List.map_singleton, hpayload], ?_⟩
    exact (s.buffer.slice_moveToFront (by omega)).trans hrest
  · refine ⟨rfl, rfl, by rw [List.map_append, List.map_singleton, hpayload], ?_⟩
    have hnil : rest = [] := List.eq_nil_of_length_eq_zero (by omega)
    rw [hnil]
    simp [view, Region.slice]

/-- The main loop on a piece of a stream. -/
lemma afterRead_message {m : Bytes} {todo : List Bytes} (hsize : size < 2 ^ 31)
    (hms : Receivable size (m :: todo)) (hdot : s.https = false)
    (hview : s.view <+: dotStream (m :: todo)) (hlen : 12 ≤ s.view.length) :
    (∃ answer fits, s.view.length < m.length + 2 ∧
        s.afterRead = { s with
          phase := .readingRest s.bufferPos (m.length + 2 - s.bufferPos) fits answer } ∧
        answer.offset = 2 ∧ answer.len = m.length ∧ answer.chunkLen = m.length + 2) ∨
      (∃ answer rest, s.view = dotEncode m ++ rest ∧ s.afterRead = s.forward answer ∧
        answer.offset = 2 ∧ answer.len = m.length ∧ answer.chunkLen = m.length + 2) := by
  obtain ⟨hm12, hm16, hmsize⟩ := hms m List.mem_cons_self
  have hpos := s.length_view
  have hfits := s.fits
  have hlength := ofBE_take_two hm16 hview (by omega)
  have hheader : nsHeader s.https s.view = .found 2 m.length := by
    rw [hdot, nsHeader, if_neg (by decide), dotHeader, if_neg (by omega), hlength]
  have hanswer : nsAnswer s.https s.bufferPos 2 m.length =
      ⟨2, m.length, m.length + 2, (m.length + 2 - s.bufferPos : ℤ)⟩ := by
    rw [hdot, nsAnswer, if_neg (by decide), dotAnswer, toInt32_of_bounds (by omega)]
  rw [afterRead, hheader]
  simp only [hanswer]
  by_cases hrest : (0 : ℤ) < m.length + 2 - s.bufferPos
  · left
    have hto : ((m.length : ℤ) + 2 - s.bufferPos).toNat = m.length + 2 - s.bufferPos := by omega
    rw [if_pos hrest, dif_pos (by omega)]
    refine ⟨⟨2, m.length, m.length + 2, m.length + 2 - s.bufferPos⟩, by omega, by omega, ?_, rfl,
      rfl, rfl⟩
    simp only [hto]
  · right
    rw [if_neg hrest]
    have hfront : dotEncode m <+: s.view := by
      refine List.prefix_of_prefix_length_le ?_ hview (by rw [length_dotEncode]; omega)
      rw [dotStream, List.flatMap_cons]
      exact List.prefix_append _ _
    obtain ⟨rest, hrest⟩ := hfront
    exact ⟨_, rest, hrest.symm, rfl, rfl, rfl, rfl⟩

/-- Two complete messages at the front. -/
def TwoComplete (bs : Bytes) : Prop :=
  ∃ m₁ m₂ rest, m₁.length < 2 ^ 16 ∧ bs = dotEncode m₁ ++ rest ∧ Complete m₂ rest

/-- After the read of the main loop the buffer holds at most one complete message. -/
def OneMessage (s : TrustedNs size) : NsAction → Prop
  | .read data =>
      match s.phase with
      | .reading => ¬ TwoComplete (s.view ++ data)
      | _ => True
  | _ => True

/-- If the loop waits for more, every complete message has been passed on. -/
def Drained (s : TrustedNs size) : Prop := s.phase = .reading → ¬ ∃ m, Complete m s.view

lemma prefix_of_append_eq {ms sent todo : List Bytes} {bs v : Bytes} (hms : ms = sent ++ todo)
    (hbs : bs = dotStream sent ++ v) (hpre : bs <+: dotStream ms) : v <+: dotStream todo := by
  rw [hbs, hms, dotStream, dotStream, List.flatMap_append] at hpre
  exact (List.prefix_append_right_inj _).mp hpre

lemma drained_of_view_nil (h : s.view = []) : s.Drained := by
  rintro - ⟨m, hm⟩
  have hlen := hm.2.length_le
  rw [h, length_dotEncode] at hlen
  exact absurd hlen (by simp)

/-- Behind a complete message the question is asked again. -/
lemma twoComplete_append_iff {m rest : Bytes} (hm : m.length < 2 ^ 16) :
    TwoComplete (dotEncode m ++ rest) ↔ ∃ m₂, Complete m₂ rest := by
  constructor
  · rintro ⟨m₁, m₂, rest', hm₁, heq, hm₂⟩
    obtain ⟨-, rfl⟩ := dotEncode_append_inj hm hm₁ heq
    exact ⟨m₂, hm₂⟩
  · rintro ⟨m₂, hm₂⟩
    exact ⟨m, m₂, rest, hm, rfl, hm₂⟩

lemma TwoComplete.first {bs : Bytes} (h : TwoComplete bs) : ∃ m, Complete m bs := by
  obtain ⟨m, -, rest, hm, rfl, -⟩ := h
  exact ⟨m, hm, List.prefix_append _ _⟩

/-- The main loop on a piece of a stream: it goes on in the stream, and waits with nothing to pass
on unless two messages are complete. -/
lemma afterRead_inStream {received : Bytes} {sent todo : List Bytes} (hsize : size < 2 ^ 31)
    (hms : Receivable size ms) (hdot : s.https = false) (hsplit : ms = sent ++ todo)
    (hsent : s.responses.map NsResponse.payload = sent)
    (hreceived : received = dotStream sent ++ s.view) (hpre : received <+: dotStream ms) :
    InStream ms received s.afterRead ∧ (¬ TwoComplete s.view ↔ s.afterRead.Drained) := by
  have hview := prefix_of_append_eq hsplit hreceived hpre
  have htodo : Receivable size todo := by
    intro m hm
    exact hms m (by rw [hsplit]; exact List.mem_append_right _ hm)
  have hnone := not_complete_of_short (fun m hm => (htodo m hm).2.1) hview
  by_cases hlen : s.view.length < 12
  · -- not even a header: nothing can be complete
    have hnone := hnone fun m hm => by
      have hm12 := (htodo m (List.mem_of_mem_head? hm)).1
      omega
    have hafter : s.afterRead = { s with phase := .reading } := by
      rw [afterRead, hdot, nsHeader, if_neg (by decide), dotHeader, if_pos hlen]
    rw [hafter]
    refine ⟨⟨hdot, sent, todo, hsplit, hsent, hreceived⟩, ?_⟩
    exact iff_of_true (fun htwo => hnone htwo.first) (fun _ => hnone)
  · obtain ⟨m, todo', rfl⟩ : ∃ m todo', todo = m :: todo' := by
      cases todo with
      | nil =>
          have hle := hview.length_le
          rw [dotStream, List.flatMap_nil, List.length_nil] at hle
          omega
      | cons m todo' => exact ⟨m, todo', rfl⟩
    obtain ⟨hm12, hm16, hmsize⟩ := htodo m List.mem_cons_self
    obtain ⟨answer, fits, hshort, hafter, hoffset, hanslen, hchunk⟩ |
      ⟨answer, rest, hrest, hafter, hoffset, hanslen, hchunk⟩ :=
        afterRead_message hsize htodo hdot hview (by omega)
    · rw [hafter]
      have hpos := s.length_view
      refine ⟨⟨hdot, sent, m :: todo', hsplit, hsent, by omega, hreceived, m, todo', rfl, by omega,
        hoffset, hanslen, hchunk⟩, ?_⟩
      refine iff_of_true (fun htwo => ?_) (fun hphase => by cases hphase)
      refine hnone (fun m' hm' => ?_) htwo.first
      obtain rfl := Option.some.inj hm'
      omega
    · obtain ⟨hdot', hphase', hsent', hview'⟩ :=
        forward_message hm12 hrest hoffset hanslen hchunk
      rw [hafter]
      refine ⟨⟨hdot'.trans hdot, sent ++ [m], todo', by simp [hsplit], by rw [hsent', hsent], ?_⟩,
        ?_⟩
      · rw [hphase']
        simp only
        rw [hreceived, hrest, hview', dotStream, dotStream, List.flatMap_append,
          List.flatMap_singleton, List.append_assoc]
      · rw [Drained, hview', hrest, twoComplete_append_iff hm16]
        exact ⟨fun hone _ => hone, fun hdrained => hdrained hphase'⟩

lemma step_inStream {received data : Bytes} (hsize : size < 2 ^ 31) (hms : Receivable size ms)
    (h : InStream ms received s) (hdata : data ≠ []) (hpre : received ++ data <+: dotStream ms)
    (hstep : s.step (.read data) = some s') :
    InStream ms (received ++ data) s' ∧ (s.OneMessage (.read data) ↔ s'.Drained) := by
  obtain ⟨hdot, sent, todo, hsplit, hsent, hphases⟩ := h
  obtain ⟨ok, heq, -⟩ | ⟨data, hfits, heq, hphase, rfl⟩ |
    ⟨data, pos, rest, fits, answer, hlen, heq, hphase, rfl⟩ | ⟨heq, -⟩ := step_cases hstep
  · cases heq
  · obtain rfl := NsAction.read.inj heq
    simp only [hphase] at hphases
    rw [if_neg hdata]
    simp only [OneMessage, hphase, ← view_append s hfits]
    refine afterRead_inStream hsize hms hdot hsplit hsent ?_ hpre
    rw [view_append, hphases, List.append_assoc]
  · obtain rfl := NsAction.read.inj heq
    simp only [hphase] at hphases
    obtain ⟨hrest, hreceived, m, todo', rfl, hend, hoffset, hanslen, hchunk⟩ := hphases
    obtain ⟨hm12, hm16, hmsize⟩ := hms m (by rw [hsplit]; simp)
    have hstored : received ++ data = dotStream sent ++
        (s.buffer.store pos data (by omega)).slice 0 (pos + data.length) := by
      rw [Region.slice_store, hreceived, List.append_assoc]
    split
    · next hdone =>
        -- the message is complete, and nothing follows it in the buffer
        have hview : (s.append pos data (by omega)).view = dotEncode m ++ [] := by
          rw [List.append_nil]
          have hpre' := prefix_of_append_eq hsplit hstored hpre
          rw [dotStream, List.flatMap_cons] at hpre'
          have hfront := List.prefix_of_prefix_length_le hpre' (List.prefix_append _ _) (by
            rw [Region.length_slice _ (by omega), length_dotEncode]
            omega)
          refine hfront.eq_of_length ?_
          rw [Region.length_slice _ (by omega), length_dotEncode]
          omega
        obtain ⟨hdot', hphase', hsent', hview'⟩ := forward_message hm12 hview hoffset hanslen hchunk
        refine ⟨⟨hdot'.trans hdot, sent ++ [m], todo', by simp [hsplit],
          by rw [hsent', append_responses, hsent], ?_⟩, ?_⟩
        · rw [hphase']
          simp only
          rw [hview', List.append_nil, hstored, dotStream, dotStream, List.flatMap_append,
            List.flatMap_singleton]
          exact congrArg _ (hview.trans (List.append_nil _))
        · exact iff_of_true (by simp only [OneMessage, hphase]) (drained_of_view_nil hview')
    · refine ⟨⟨hdot, sent, m :: todo', hsplit, hsent, by omega, hstored, m, todo', rfl, by omega,
        hoffset, hanslen, hchunk⟩, ?_⟩
      exact iff_of_true (by simp only [OneMessage, hphase]) (fun hphase' => by cases hphase')
  · cases heq

/-- Along the reads of a stream: whenever the loop waits nothing complete is left, if and only if
no read of the main loop completes two messages. -/
lemma run_drained_iff {received : Bytes} {segs : List Bytes} (hsize : size < 2 ^ 31)
    (hms : Receivable size ms) (h : InStream ms received s) (hdrained : s.Drained)
    (hsegs : ∀ seg ∈ segs, seg ≠ []) (hpre : received ++ segs.flatten <+: dotStream ms)
    (hrun : (exec step s (segs.map .read)).isSome) :
    (∀ pre t, pre <+: segs → exec step s (pre.map .read) = some t → t.Drained) ↔
      Along step OneMessage s (segs.map .read) := by
  induction segs generalizing s received with
  | nil =>
      refine iff_of_true ?_ trivial
      intro pre t hnil ht
      rw [List.prefix_nil.mp hnil] at ht
      obtain rfl := Option.some.inj ht
      exact hdrained
  | cons seg segs ih =>
      rw [List.flatten_cons, ← List.append_assoc] at hpre
      have hseg := hsegs seg List.mem_cons_self
      have hrest := fun x hx => hsegs x (List.mem_cons_of_mem _ hx)
      have hone : received ++ seg <+: dotStream ms := (List.prefix_append _ _).trans hpre
      obtain ⟨u, hu⟩ := Option.isSome_iff_exists.mp hrun
      obtain ⟨s', hs', hu'⟩ := exec_cons_eq_some.mp hu
      obtain ⟨hin, hiff⟩ := step_inStream hsize hms h hseg hone hs'
      have hrun' : (exec step s' (segs.map .read)).isSome := by rw [hu']; rfl
      constructor
      · intro hall
        have hdrained' : s'.Drained := by
          refine hall [seg] s' ⟨segs, rfl⟩ ?_
          rw [List.map_singleton, exec_cons_of_step hs', exec_nil]
        refine ⟨hiff.mpr hdrained', ?_⟩
        intro s'' hs''
        obtain rfl : s' = s'' := Option.some.inj (hs'.symm.trans hs'')
        refine (ih hin hdrained' hrest hpre hrun').mp ?_
        intro pre t hpre' ht
        refine hall (seg :: pre) t (List.cons_prefix_cons.mpr ⟨rfl, hpre'⟩) ?_
        rw [List.map_cons, exec_cons_of_step hs', ht]
      · rintro ⟨hcond, hmore⟩ pre t hpre' ht
        cases pre with
        | nil =>
            obtain rfl := Option.some.inj ht
            exact hdrained
        | cons x pre =>
            obtain ⟨rfl, hpre''⟩ := List.cons_prefix_cons.mp hpre'
            rw [List.map_cons, exec_cons_of_step hs'] at ht
            exact (ih hin (hiff.mp hcond) hrest hpre hrun').mpr (hmore s' hs') pre t hpre'' ht

lemma run_inStream {received : Bytes} {segs : List Bytes} {t : TrustedNs size}
    (hsize : size < 2 ^ 31) (hms : Receivable size ms) (h : InStream ms received s)
    (hsegs : ∀ seg ∈ segs, seg ≠ []) (hpre : received ++ segs.flatten <+: dotStream ms)
    (hrun : exec step s (segs.map .read) = some t) : InStream ms (received ++ segs.flatten) t := by
  induction segs generalizing s received with
  | nil =>
      obtain rfl := Option.some.inj hrun
      rw [List.flatten_nil, List.append_nil]
      exact h
  | cons seg segs ih =>
      rw [List.flatten_cons, ← List.append_assoc] at hpre ⊢
      obtain ⟨s', hs', hrest⟩ := exec_cons_eq_some.mp hrun
      have hone : received ++ seg <+: dotStream ms := (List.prefix_append _ _).trans hpre
      obtain ⟨hin, -⟩ := step_inStream hsize hms h (hsegs seg List.mem_cons_self) hone hs'
      exact ih hin (fun x hx => hsegs x (List.mem_cons_of_mem _ hx)) hpre hrest

/-- What has arrived is the messages passed on, each with its bytes, and the incomplete rest in the
buffer. -/
def Delivered (ms : List Bytes) (received : Bytes) (s : TrustedNs size) : Prop :=
  ∃ sent todo, ms = sent ++ todo ∧ s.responses.map NsResponse.payload = sent ∧
    received = dotStream sent ++ s.view ∧ ¬ ∃ m, Complete m s.view

/-- **Every message is passed on as soon as it is complete, if and only if no read of the main
loop completes two.**  For every list of DNS over TLS messages and every way in which reads cut
what has arrived of their stream. -/
theorem messages_delivered_iff (hsize : size < 2 ^ 31) (buffer : Region UInt8 size)
    (ms segs : List Bytes) (hms : Receivable size ms) (hsegs : ∀ seg ∈ segs, seg ≠ [])
    (hpre : segs.flatten <+: dotStream ms)
    (hrun : (exec step (init false buffer) (segs.map .read)).isSome) :
    (∀ pre t, pre <+: segs → exec step (init false buffer) (pre.map .read) = some t →
        t.phase = .reading → Delivered ms pre.flatten t) ↔
      Along step OneMessage (init false buffer) (segs.map .read) := by
  have hinit : InStream ms [] (init false buffer) := ⟨rfl, [], ms, rfl, rfl, rfl⟩
  have hdrained : (init false buffer).Drained := drained_of_view_nil rfl
  rw [← run_drained_iff hsize hms hinit hdrained hsegs hpre hrun]
  constructor
  · intro hall pre t hpre' ht hphase
    obtain ⟨-, -, -, -, -, hnone⟩ := hall pre t hpre' ht hphase
    exact hnone
  · intro hall pre t hpre' ht hphase
    have hsegs' := fun x hx => hsegs x (hpre'.subset hx)
    have hflat : pre.flatten <+: segs.flatten := by
      obtain ⟨rest, rfl⟩ := hpre'
      rw [List.flatten_append]
      exact List.prefix_append _ _
    have hin := run_inStream hsize hms hinit hsegs' (hflat.trans hpre) ht
    obtain ⟨-, sent, todo, hsplit, hsent, hreceived⟩ := hin
    simp only [hphase] at hreceived
    exact ⟨sent, todo, hsplit, hsent, hreceived, hall pre t hpre' ht hphase⟩

/-- Exactly one message. -/
lemma not_twoComplete_dotEncode {m : Bytes} (hm : m.length < 2 ^ 16) :
    ¬ TwoComplete (dotEncode m) := by
  rw [← List.append_nil (dotEncode m), twoComplete_append_iff hm]
  rintro ⟨m₂, hm₂⟩
  have hlen := hm₂.2.length_le
  rw [length_dotEncode, List.length_nil] at hlen
  omega

/-- Two messages of 12 bytes, one in each read. -/
theorem messages_delivered_two_reads :
    (exec step (init false freshBuffer)
        [.read (dotEncode (List.replicate 12 1)), .read (dotEncode (List.replicate 12 2))]).isSome ∧
      ∀ pre t, pre <+: [dotEncode (List.replicate 12 1), dotEncode (List.replicate 12 2)] →
        exec step (init false freshBuffer) (pre.map .read) = some t → t.phase = .reading →
        Delivered [List.replicate 12 1, List.replicate 12 2] pre.flatten t := by
  refine ⟨rfl, ?_⟩
  refine (messages_delivered_iff (by decide) freshBuffer _ _ ?_ ?_ ?_ ?_).mpr ?_
  · rw [Receivable]
    decide
  · decide
  · simp [dotStream]
  · rfl
  · refine ⟨not_twoComplete_dotEncode (by decide), fun s hs => ⟨?_, fun _ _ => trivial⟩⟩
    obtain rfl := Option.some.inj hs
    exact not_twoComplete_dotEncode (by decide)

/-- Two messages of 12 bytes in one read: the loop waits for more with the second one complete in
its buffer. -/
theorem second_message_waits :
    ∃ t, exec step (init false freshBuffer)
        [.read (dotStream [List.replicate 12 1, List.replicate 12 2])] = some t ∧
      t.phase = .reading ∧ t.responses.map NsResponse.payload = [List.replicate 12 1] ∧
      ¬ Delivered [List.replicate 12 1, List.replicate 12 2]
        (dotStream [List.replicate 12 1, List.replicate 12 2]) t := by
  refine ⟨_, rfl, rfl, rfl, ?_⟩
  rintro ⟨sent, todo, -, -, -, hnone⟩
  exact hnone ⟨List.replicate 12 2, by decide, [], rfl⟩

end TrustedNs

end Snova
