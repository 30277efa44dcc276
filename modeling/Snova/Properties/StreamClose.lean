import Snova.Model.MuxStream

/-!
# A remote close and the chunk in the channel

`Read` tests `closed_` before it looks into the channel.  A chunk that is still buffered when the
peer's close request is processed is therefore never returned, although its `Offer` succeeded.
That is the only way a chunk is lost: as long as `Close(true)` does not run over a buffered chunk
whose `Offer` has completed, every completed chunk is returned, in order, before any `Read`
returns an error.
-/

namespace Snova.StreamState

variable {κ μ : Type} [DecidableEq κ]

/-! ## One `Offer`, one `Read` -/

/-- Everything `Offer` can do to an open stream, when called by `c`. -/
inductive OfferSpec (s : StreamState κ μ) (c : κ) (chunk : μ) : StreamState κ μ → Prop
  | handed {ch : Channel (Option κ) μ} {r : Option κ} {rs : List (Option κ)}
      (hreceivers : s.stream.dataChannel.receivers = r :: rs) (hreceivers' : ch.receivers = rs)
      (hbuffer : s.stream.dataChannel.buffer = []) (hbuffer' : ch.buffer = [])
      (hsenders' : ch.senders = []) (hopen' : ch.isOpen = true)
      (hcap : ch.capacity = s.stream.dataChannel.capacity) :
      OfferSpec s c chunk
        { s.accept c chunk with stream := ⟨false, ch⟩, readPc := .received chunk }
  | buffered {ch : Channel (Option κ) μ} (hreceivers : s.stream.dataChannel.receivers = [])
      (hreceivers' : ch.receivers = [])
      (hbuffer' : ch.buffer = s.stream.dataChannel.buffer ++ [chunk])
      (hsenders' : ch.senders = []) (hopen' : ch.isOpen = true)
      (hcap : ch.capacity = s.stream.dataChannel.capacity) :
      OfferSpec s c chunk { s.accept c chunk with stream := ⟨false, ch⟩ }
  | suspended {ch : Channel (Option κ) μ} (hreceivers : s.stream.dataChannel.receivers = [])
      (hreceivers' : ch.receivers = []) (hbuffer' : ch.buffer = s.stream.dataChannel.buffer)
      (hsenders' : ch.senders = s.stream.dataChannel.senders ++ [(some c, chunk)])
      (hopen' : ch.isOpen = true) (hcap : ch.capacity = s.stream.dataChannel.capacity) :
      OfferSpec s c chunk
        { s with
          stream := ⟨false, ch⟩
          offerPc := Function.update s.offerPc c (.sending chunk) }

lemma OfferSpec.closed_eq {s s' : StreamState κ μ} {c : κ} {chunk : μ}
    (h : OfferSpec s c chunk s') : s'.stream.closed = false := by
  cases h <;> rfl

lemma stepOffer_spec {s : StreamState κ μ} (c : κ) (chunk : μ) (hclosed : s.stream.closed = false)
    (hopen : s.stream.dataChannel.isOpen = true) :
    OfferSpec s c chunk (s.stepOffer c chunk) := by
  unfold stepOffer MuxStream.offer
  rw [hclosed]
  have hspec := s.stream.dataChannel.send_spec (some c) chunk
  revert hspec
  generalize s.stream.dataChannel.send (some c) chunk = r
  obtain ⟨ch, res⟩ := r
  intro hspec
  cases hspec with
  | handed ho hr hr' hb hs hb' hs' ho' hc' => exact .handed hr hr' hb hb' hs' ho' hc'
  | buffered ho hr hroom hs hr' hb' hs' ho' hc' => exact .buffered hr hr' hb' hs' ho' hc'
  | suspended ho hr hfull hr' hb' hs' ho' hc' => exact .suspended hr hr' hb' hs' ho' hc'
  | closed hc => exact absurd hopen (by simp [hc])

/-- Everything `Read` can do to an open stream whose channel has room for something. -/
inductive ReadSpec (s : StreamState κ μ) : StreamState κ μ → Prop
  | taken {ch : Channel (Option κ) μ} {chunk : μ} {chunks : List μ}
      (hbuffer : s.stream.dataChannel.buffer = chunk :: chunks)
      (hreceivers' : ch.receivers = []) (hbuffer' : ch.buffer = chunks)
      (hsenders' : ch.senders = []) (hopen' : ch.isOpen = true)
      (hcap : ch.capacity = s.stream.dataChannel.capacity) :
      ReadSpec s { s with stream := ⟨false, ch⟩, readPc := .received chunk }
  | refilled {ch : Channel (Option κ) μ} {chunk chunk' : μ} {chunks : List μ} {c : κ}
      {rest : List (Option κ × μ)}
      (hbuffer : s.stream.dataChannel.buffer = chunk :: chunks)
      (hsenders : s.stream.dataChannel.senders = (some c, chunk') :: rest)
      (hreceivers' : ch.receivers = []) (hbuffer' : ch.buffer = chunks ++ [chunk'])
      (hsenders' : ch.senders = rest) (hopen' : ch.isOpen = true)
      (hcap : ch.capacity = s.stream.dataChannel.capacity) :
      ReadSpec s
        ({ s with stream := ⟨false, ch⟩, readPc := .received chunk }.accept c chunk')
  | suspended {ch : Channel (Option κ) μ} (hbuffer : s.stream.dataChannel.buffer = [])
      (hreceivers' : ch.receivers = s.stream.dataChannel.receivers ++ [none])
      (hbuffer' : ch.buffer = []) (hsenders' : ch.senders = []) (hopen' : ch.isOpen = true)
      (hcap : ch.capacity = s.stream.dataChannel.capacity) :
      ReadSpec s { s with stream := ⟨false, ch⟩, readPc := .receiving }

lemma ReadSpec.closed_eq {s s' : StreamState κ μ} (h : ReadSpec s s') :
    s'.stream.closed = false := by
  cases h <;> rfl

lemma stepRead_spec {s : StreamState κ μ} (hclosed : s.stream.closed = false)
    (hopen : s.stream.dataChannel.isOpen = true) (hcap : 0 < s.stream.dataChannel.capacity)
    (hsenders : ∀ p ∈ s.stream.dataChannel.senders,
      ∃ c, p.1 = some c ∧ s.offerPc c = .sending p.2) :
    ReadSpec s s.stepRead := by
  unfold stepRead MuxStream.read
  rw [hclosed]
  simp only [Bool.false_eq_true, if_false]
  have hspec := s.stream.dataChannel.receive_spec none hcap
  revert hspec
  generalize s.stream.dataChannel.receive none = r
  obtain ⟨ch, res⟩ := r
  intro hspec
  cases hspec with
  | taken hb hr hs hb' hr' hs' ho' hc' => exact .taken hb hr' hb' hs' (ho'.trans hopen) hc'
  | refilled hb hr hs hb' hr' hs' ho' hc' =>
      rename_i chunk chunk' chunks sender rest
      obtain ⟨c, hc, hpc⟩ := hsenders (sender, chunk') (by rw [hs]; exact List.mem_cons_self)
      obtain rfl : sender = some c := hc
      simp only [hpc]
      exact .refilled hb hs hr' hb' hs' (ho'.trans hopen) hc'
  | suspended ho hb hs hb' hs' hr' ho' hc' => exact .suspended hb hr' hb' hs' ho' hc'
  | closed hc hb => exact absurd hopen (by simp [hc])

/-! ## The invariant -/

/-- The chunk the reader has been given and has not returned. -/
def inHand : ReadPc μ → List μ
  | .received chunk => [chunk]
  | _ => []

@[simp] lemma inHand_cancelRead (pc : ReadPc μ) : inHand (cancelRead pc) = inHand pc := by
  cases pc <;> rfl

/-- The channel of an open stream agrees with where its coroutines stand. -/
structure Wired (s : StreamState κ μ) : Prop where
  isOpen : s.stream.dataChannel.isOpen = true
  capacity : s.stream.dataChannel.capacity = 1
  receivers : s.stream.dataChannel.receivers =
    match s.readPc with
    | .receiving => [none]
    | _ => []
  senders : ∀ p ∈ s.stream.dataChannel.senders, ∃ c, p.1 = some c ∧ s.offerPc c = .sending p.2
  nodup : (s.stream.dataChannel.senders.map Prod.fst).Nodup

/-- Every accepted chunk is returned, in the reader's hand or buffered, in this order, and the
numbers in use are those of accepted chunks. -/
structure Recorded (s : StreamState κ μ) : Prop where
  order : s.accepted = s.returned ++ inHand s.readPc ++ s.stream.dataChannel.buffer
  sent : ∀ c n, s.offerPc c = .sent n → n < s.accepted.length
  completed : ∀ n ∈ s.completed, n < s.accepted.length
  failed : s.readFailed = true → s.stream.closed = true ∧ inHand s.readPc = []

structure Inv (s : StreamState κ μ) : Prop where
  wired : s.stream.closed = false → Wired s
  cancelled : s.readPc = .cancelled → s.stream.closed = true
  recorded : Recorded s

omit [DecidableEq κ] in
lemma inv_init : Inv (init : StreamState κ μ) where
  wired := fun _ => ⟨rfl, rfl, rfl, by simp [init, MuxStream.new], by simp [init, MuxStream.new]⟩
  cancelled := fun h => by cases h
  recorded := ⟨rfl, by simp [init], by simp [init], by simp [init]⟩

variable {s s' : StreamState κ μ}

/-- Accepting a chunk gives it the next number. -/
lemma sent_accept {c d : κ} {chunk : μ} {n : ℕ} (h : Recorded s)
    (hd : (s.accept c chunk).offerPc d = .sent n) : n < (s.accept c chunk).accepted.length := by
  simp only [accept, Function.update_apply] at hd
  simp only [accept, List.length_append, List.length_singleton]
  split at hd
  · cases hd
    omega
  · have := h.sent d n hd
    omega

omit [DecidableEq κ] in
/-- A receiver waits only while the transfer loop is in its receive. -/
lemma Wired.receiving (h : Wired s) {r : Option κ} {rs : List (Option κ)}
    (hr : s.stream.dataChannel.receivers = r :: rs) : s.readPc = .receiving ∧ rs = [] := by
  rw [h.receivers] at hr
  cases hpc : s.readPc <;> rw [hpc] at hr <;> simp_all

omit [DecidableEq κ] in
lemma Wired.not_receiving (h : Wired s) (hr : s.stream.dataChannel.receivers = []) :
    s.readPc ≠ .receiving := by
  intro hpc
  rw [h.receivers, hpc] at hr
  cases hr

omit [DecidableEq κ] in
/-- A coroutine outside `Offer` is not among the suspended senders. -/
lemma Wired.not_mem_senders (h : Wired s) {c : κ} (hidle : s.offerPc c = .idle) :
    some c ∉ s.stream.dataChannel.senders.map Prod.fst := by
  intro hmem
  obtain ⟨p, hp, hpc⟩ := List.mem_map.mp hmem
  obtain ⟨d, hd, hsending⟩ := h.senders p hp
  obtain rfl : d = c := Option.some.inj (hd.symm.trans hpc)
  rw [hidle] at hsending
  cases hsending

omit [DecidableEq κ] in
lemma Recorded.readFailed_eq (h : Recorded s) (hclosed : s.stream.closed = false) :
    s.readFailed = false := by
  cases hf : s.readFailed with
  | false => rfl
  | true =>
      have hc := (h.failed hf).1
      rw [hclosed] at hc
      cases hc

/-- The record after a chunk has been accepted: it stands behind all the others. -/
lemma Recorded.accept (h : Recorded s) (hclosed : s.stream.closed = false) {c : κ} {chunk : μ}
    {st : MuxStream (Option κ) μ} {pc : ReadPc μ}
    (horder : inHand pc ++ st.dataChannel.buffer =
      inHand s.readPc ++ s.stream.dataChannel.buffer ++ [chunk]) :
    Recorded { s.accept c chunk with stream := st, readPc := pc } where
  order := by
    simp only [StreamState.accept]
    rw [h.order, List.append_assoc, List.append_assoc, List.append_assoc, horder,
      List.append_assoc]
  sent := fun d n hd => sent_accept h hd
  completed := by
    intro n hn
    have := h.completed n hn
    simp only [StreamState.accept, List.length_append]
    omega
  failed := by
    intro hf
    have := h.readFailed_eq hclosed
    simp only [StreamState.accept] at hf
    rw [this] at hf
    cases hf

lemma offer_inv {c : κ} {chunk : μ} (hclosed : s.stream.closed = false)
    (hidle : s.offerPc c = .idle) (h : Inv s) (hspec : OfferSpec s c chunk s') : Inv s' := by
  obtain ⟨hwired, hcancelled, hrec⟩ := h
  have hlive : s.readPc ≠ .cancelled := fun hc => by
    have := hcancelled hc
    rw [hclosed] at this
    cases this
  have hw := hwired hclosed
  have hcap := hw.capacity
  cases hspec with
  | handed hr hr' hb hb' hs' ho' hc' =>
      obtain ⟨hpc, hrs⟩ := hw.receiving hr
      refine ⟨fun _ => ⟨ho', hc'.trans hcap, hr'.trans hrs, ?_, ?_⟩, ?_, hrec.accept hclosed ?_⟩
      · simp [hs']
      · simp [hs']
      · intro hc
        cases hc
      · simp [inHand, hpc, hb, hb']
  | buffered hr hr' hb' hs' ho' hc' =>
      have hpc := hw.not_receiving hr
      refine ⟨fun _ => ⟨ho', hc'.trans hcap, ?_, ?_, ?_⟩, fun hc => absurd hc hlive,
        hrec.accept hclosed ?_⟩
      · rw [hr']
        cases hread : s.readPc <;> simp_all [StreamState.accept]
      · simp [hs']
      · simp [hs']
      · rw [hb', List.append_assoc]
        rfl
  | suspended hr hr' hb' hs' ho' hc' =>
      have hpc := hw.not_receiving hr
      have hnew := hw.not_mem_senders hidle
      refine ⟨fun _ => ⟨ho', hc'.trans hcap, ?_, ?_, ?_⟩, fun hc => absurd hc hlive,
        ⟨?_, ?_, hrec.completed, ?_⟩⟩
      · rw [hr']
        cases hread : s.readPc <;> simp_all
      · intro p hp
        rw [hs', List.mem_append, List.mem_singleton] at hp
        rcases hp with hp | rfl
        · obtain ⟨d, hd, hsending⟩ := hw.senders p hp
          have hne : d ≠ c := by
            rintro rfl
            exact hnew (List.mem_map.mpr ⟨p, hp, hd⟩)
          exact ⟨d, hd, by simp only [Function.update_of_ne hne, hsending]⟩
        · exact ⟨c, rfl, by simp⟩
      · rw [hs', List.map_append, List.nodup_append]
        refine ⟨hw.nodup, by simp, ?_⟩
        intro x hx y hy hxy
        rw [List.map_cons, List.map_nil, List.mem_singleton] at hy
        rw [hxy, hy] at hx
        exact hnew hx
      · rw [hb']
        exact hrec.order
      · intro d n hd
        simp only [Function.update_apply] at hd
        split at hd
        · cases hd
        · exact hrec.sent d n hd
      · intro hf
        have := hrec.readFailed_eq hclosed
        rw [this] at hf
        cases hf

lemma read_inv (hclosed : s.stream.closed = false) (hidle : s.readPc = .idle) (h : Inv s)
    (hspec : ReadSpec s s') : Inv s' := by
  obtain ⟨hwired, -, hrec⟩ := h
  have hw := hwired hclosed
  have hcap := hw.capacity
  have hfail := hrec.readFailed_eq hclosed
  cases hspec with
  | taken hb hr' hb' hs' ho' hc' =>
      refine ⟨fun _ => ⟨ho', hc'.trans hcap, hr', ?_, ?_⟩, ?_,
        ⟨?_, hrec.sent, hrec.completed, ?_⟩⟩
      · simp [hs']
      · simp [hs']
      · intro hc
        cases hc
      · simp [hrec.order, hidle, inHand, hb, hb']
      · simp [hfail]
  | refilled hb hs hr' hb' hs' ho' hc' =>
      rename_i ch chunk chunk' chunks c rest
      have hnodup := hw.nodup
      rw [hs, List.map_cons, List.nodup_cons] at hnodup
      refine ⟨fun _ => ⟨ho', hc'.trans hcap, hr', ?_, ?_⟩, ?_, ?_⟩
      · intro p hp
        simp only [StreamState.accept] at hp ⊢
        rw [hs'] at hp
        obtain ⟨d, hd, hsending⟩ := hw.senders p (by rw [hs]; exact List.mem_cons_of_mem _ hp)
        have hne : d ≠ c := by
          rintro rfl
          exact hnodup.1 (List.mem_map.mpr ⟨p, hp, hd⟩)
        exact ⟨d, hd, by rw [Function.update_of_ne hne, hsending]⟩
      · simp only [StreamState.accept, hs']
        exact hnodup.2
      · intro hc
        cases hc
      · refine @Recorded.accept _ _ _ s hrec hclosed c chunk' ⟨false, ch⟩ (.received chunk) ?_
        simp [inHand, hidle, hb, hb']
  | suspended hb hr' hb' hs' ho' hc' =>
      refine ⟨fun _ => ⟨ho', hc'.trans hcap, ?_, ?_, ?_⟩, ?_,
        ⟨?_, hrec.sent, hrec.completed, ?_⟩⟩
      · rw [hr', hw.receivers, hidle]
        rfl
      · simp [hs']
      · simp [hs']
      · intro hc
        cases hc
      · simp [hrec.order, hidle, inHand, hb, hb']
      · simp [hfail]

omit [DecidableEq κ] in
/-- `Close(true)` leaves the buffer, and what the reader holds, as they are. -/
lemma close_recorded (h : Recorded s) : Recorded s.stepClose := by
  unfold stepClose
  split
  · exact h
  · next hclosed =>
      refine ⟨?_, ?_, h.completed, ?_⟩
      · have hbuffer : s.stream.closeByRemote.dataChannel.buffer = s.stream.dataChannel.buffer := by
          rw [MuxStream.closeByRemote, if_neg hclosed]
          rfl
        simp only [hbuffer, inHand_cancelRead]
        exact h.order
      · intro c n hn
        simp only at hn
        cases hpc : s.offerPc c with
        | sent m =>
            rw [hpc] at hn
            cases hn
            exact h.sent c n hpc
        | idle => rw [hpc] at hn; cases hn
        | sending chunk => rw [hpc] at hn; cases hn
        | cancelled => rw [hpc] at hn; cases hn
      · intro hf
        have := h.readFailed_eq (by simpa using hclosed)
        simp only at hf
        rw [this] at hf
        cases hf

omit [DecidableEq κ] in
lemma stepClose_closed (s : StreamState κ μ) : s.stepClose.stream.closed = true := by
  unfold stepClose
  split
  · assumption
  · next hclosed =>
      simp only [MuxStream.closeByRemote, if_neg hclosed]

/-- A coroutine that is not suspended in its send may return from `Offer`. -/
lemma Wired.update {c : κ} {l : List ℕ} (h : Wired s)
    (hpc : ∀ chunk, s.offerPc c ≠ .sending chunk) :
    Wired { s with offerPc := Function.update s.offerPc c .idle, completed := l } := by
  refine ⟨h.isOpen, h.capacity, h.receivers, ?_, h.nodup⟩
  intro p hp
  obtain ⟨d, hd, hsending⟩ := h.senders p hp
  have hne : d ≠ c := by
    rintro rfl
    exact hpc p.2 hsending
  exact ⟨d, hd, by simp only [Function.update_of_ne hne, hsending]⟩

lemma Recorded.sent_update {c d : κ} {n : ℕ} (h : Recorded s)
    (hd : Function.update s.offerPc c .idle d = .sent n) : n < s.accepted.length := by
  simp only [Function.update_apply] at hd
  split at hd
  · cases hd
  · exact h.sent d n hd

/-- A call of `Offer`. -/
lemma step_offer_inv {c : κ} {chunk : μ} (h : Inv s)
    (hstep : step s (.offer c chunk) = some s') : Inv s' := by
  simp only [step] at hstep
  split at hstep
  · next hidle =>
      obtain rfl := Option.some.inj hstep
      cases hclosed : s.stream.closed with
      | false =>
          exact offer_inv hclosed hidle h
            (stepOffer_spec c chunk hclosed (h.wired hclosed).isOpen)
      | true =>
          have hsame : s.stepOffer c chunk = s := by
            simp only [stepOffer, MuxStream.offer, hclosed, if_true]
          rw [hsame]
          exact h
  · cases hstep

/-- A call of `Offer` goes on: its chunk has been taken, or the channel has been cancelled. -/
lemma step_offerResume_inv {c : κ} (h : Inv s)
    (hstep : step s (.offerResume c) = some s') : Inv s' := by
  simp only [step] at hstep
  split at hstep
  · next number hsent =>
      obtain rfl := Option.some.inj hstep
      refine ⟨fun hc => (h.wired hc).update (by simp [hsent]), h.cancelled, h.recorded.order,
        fun d n hd => h.recorded.sent_update hd, ?_, h.recorded.failed⟩
      intro n hn
      simp only at hn
      split at hn
      · exact h.recorded.completed n hn
      · rcases List.mem_append.mp hn with hn | hn
        · exact h.recorded.completed n hn
        · rw [List.mem_singleton.mp hn]
          exact h.recorded.sent c number hsent
  · next hcancelled =>
      obtain rfl := Option.some.inj hstep
      exact ⟨fun hc => (h.wired hc).update (by simp [hcancelled]), h.cancelled,
        h.recorded.order, fun d n hd => h.recorded.sent_update hd, h.recorded.completed,
        h.recorded.failed⟩
  · cases hstep

/-- A call of `Read`. -/
lemma step_read_inv (h : Inv s) (hstep : step s .read = some s') : Inv s' := by
  simp only [step] at hstep
  split at hstep
  · next hidle =>
      obtain rfl := Option.some.inj hstep
      cases hclosed : s.stream.closed with
      | false =>
          have hw := h.wired hclosed
          exact read_inv hclosed hidle h
            (stepRead_spec hclosed hw.isOpen (by rw [hw.capacity]; decide) hw.senders)
      | true =>
          simp only [stepRead, MuxStream.read, hclosed, if_true]
          refine ⟨fun hc => ?_, fun _ => hclosed, h.recorded.order, h.recorded.sent,
            h.recorded.completed, ?_⟩
          · rw [hclosed] at hc; cases hc
          · exact fun _ => ⟨hclosed, by rw [hidle]; rfl⟩
  · cases hstep

/-- A call of `Read` goes on, with a chunk or after the channel has been cancelled. -/
lemma step_readResume_inv (h : Inv s) (hstep : step s .readResume = some s') : Inv s' := by
  simp only [step] at hstep
  split at hstep
  · next chunk hread =>
      obtain rfl := Option.some.inj hstep
      refine ⟨fun hc => ?_, (fun hc => by cases hc), ?_, h.recorded.sent, h.recorded.completed,
        ?_⟩
      · obtain ⟨ho, hcap, hr, hs, hn⟩ := h.wired hc
        exact ⟨ho, hcap, by rw [hr, hread], hs, hn⟩
      · simp [h.recorded.order, hread, inHand]
      · intro hf
        exact ⟨(h.recorded.failed hf).1, rfl⟩
  · next hread =>
      obtain rfl := Option.some.inj hstep
      have hclosed := h.cancelled hread
      refine ⟨fun hc => ?_, (fun hc => by cases hc), ?_, h.recorded.sent, h.recorded.completed,
        fun _ => ⟨hclosed, rfl⟩⟩
      · rw [hclosed] at hc
        cases hc
      · simp [h.recorded.order, hread, inHand]
  · cases hstep

lemma step_closeByRemote_inv (h : Inv s) (hstep : step s .closeByRemote = some s') : Inv s' := by
  obtain rfl := Option.some.inj hstep
  refine ⟨fun hc => ?_, fun _ => stepClose_closed s, close_recorded h.recorded⟩
  rw [stepClose_closed] at hc
  cases hc

lemma step_inv {a : StreamAction κ μ} (h : Inv s) (hstep : step s a = some s') : Inv s' := by
  cases a with
  | offer c chunk => exact step_offer_inv h hstep
  | offerResume c => exact step_offerResume_inv h hstep
  | read => exact step_read_inv h hstep
  | readResume => exact step_readResume_inv h hstep
  | closeByRemote => exact step_closeByRemote_inv h hstep

lemma run_inv {as : List (StreamAction κ μ)} (h : exec step init as = some s) : Inv s :=
  exec_invariant (fun _ _ _ hs hstep => step_inv hs hstep) inv_init h

/-! ## When a remote close loses nothing -/

/-- What a remote close may not do: every chunk whose `Offer` completed before it is returned by
some `Read`, in order, before any `Read` returns an error. -/
def Delivered (s : StreamState κ μ) : Prop :=
  s.returned <+: s.accepted ∧ (s.readFailed = true → ∀ n ∈ s.completed, n < s.returned.length)

/-- `Close(true)` does not run over a buffered chunk whose `Offer` has completed.  The buffered
chunk is the last one accepted. -/
def NothingBuffered (s : StreamState κ μ) (a : StreamAction κ μ) : Prop :=
  a = .closeByRemote → s.stream.closed = false → s.stream.dataChannel.buffer ≠ [] →
    s.accepted.length - 1 ∉ s.completed

/-- On a closed stream, the completed chunks have reached the reader. -/
def ReachedReader (s : StreamState κ μ) : Prop :=
  s.stream.closed = true → ∀ n ∈ s.completed, n < s.returned.length + (inHand s.readPc).length

omit [DecidableEq κ] in
lemma close_reachedReader (h : Inv s) (hr : ReachedReader s)
    (hbuffered : NothingBuffered s .closeByRemote) : ReachedReader s.stepClose := by
  unfold stepClose
  split
  · exact hr
  · next hclosed =>
      have hopen : s.stream.closed = false := by simpa using hclosed
      intro _ n hn
      have hlen : s.accepted.length = s.returned.length + (inHand s.readPc).length +
          s.stream.dataChannel.buffer.length := by
        rw [h.recorded.order, List.length_append, List.length_append]
      have hcap := s.stream.dataChannel.buffer_le
      rw [(h.wired hopen).capacity] at hcap
      have hn' := h.recorded.completed n hn
      simp only [inHand_cancelRead]
      by_cases hb : s.stream.dataChannel.buffer = []
      · rw [hb, List.length_nil] at hlen
        omega
      · have hne : n ≠ s.accepted.length - 1 := fun hc => hbuffered rfl hopen hb (hc ▸ hn)
        have hpos := List.length_pos_of_ne_nil hb
        omega

lemma step_reachedReader {a : StreamAction κ μ} (h : Inv s) (hr : ReachedReader s)
    (hbuffered : NothingBuffered s a) (hstep : step s a = some s') : ReachedReader s' := by
  cases a with
  | offer c chunk =>
      simp only [step] at hstep
      split at hstep
      · obtain rfl := Option.some.inj hstep
        cases hclosed : s.stream.closed with
        | false =>
            have hspec := stepOffer_spec c chunk hclosed (h.wired hclosed).isOpen
            intro hc
            rw [hspec.closed_eq] at hc
            cases hc
        | true =>
            have hsame : s.stepOffer c chunk = s := by
              simp only [stepOffer, MuxStream.offer, hclosed, if_true]
            rw [hsame]
            exact hr
      · cases hstep
  | offerResume c =>
      simp only [step] at hstep
      split at hstep
      · obtain rfl := Option.some.inj hstep
        intro hc n hn
        rw [if_pos hc] at hn
        exact hr hc n hn
      · obtain rfl := Option.some.inj hstep
        exact hr
      · cases hstep
  | read =>
      simp only [step] at hstep
      split at hstep
      · obtain rfl := Option.some.inj hstep
        cases hclosed : s.stream.closed with
        | false =>
            have hw := h.wired hclosed
            have hspec := stepRead_spec hclosed hw.isOpen (by rw [hw.capacity]; decide) hw.senders
            intro hc
            rw [hspec.closed_eq] at hc
            cases hc
        | true =>
            simp only [stepRead, MuxStream.read, hclosed, if_true]
            exact fun _ => hr hclosed
      · cases hstep
  | readResume =>
      simp only [step] at hstep
      split at hstep
      · next chunk hread =>
          obtain rfl := Option.some.inj hstep
          intro hc n hn
          have := hr hc n hn
          simpa [hread, inHand] using this
      · next hread =>
          obtain rfl := Option.some.inj hstep
          intro hc n hn
          have := hr hc n hn
          simpa [hread, inHand] using this
      · cases hstep
  | closeByRemote =>
      obtain rfl := Option.some.inj hstep
      exact close_reachedReader h hr hbuffered

omit [DecidableEq κ] in
lemma delivered_of_reachedReader (h : Inv s) (hr : ReachedReader s) : Delivered s := by
  constructor
  · rw [h.recorded.order, List.append_assoc]
    exact List.prefix_append _ _
  · intro hf n hn
    obtain ⟨hclosed, hhand⟩ := h.recorded.failed hf
    have := hr hclosed n hn
    rw [hhand, List.length_nil] at this
    omega

/-- Closing over a buffered chunk whose `Offer` has completed, and then reading: the reader gets
an error, and the chunk is never returned. -/
lemma close_loses_chunk (h : Inv s) {a : StreamAction κ μ} (hbuffered : ¬ NothingBuffered s a) :
    ∃ bs s', exec step s (a :: bs) = some s' ∧ ¬ Delivered s' := by
  simp only [NothingBuffered, Classical.not_imp, not_not] at hbuffered
  obtain ⟨rfl, hopen, hb, hdone⟩ := hbuffered
  have hw := h.wired hopen
  have hcap := s.stream.dataChannel.buffer_le
  rw [hw.capacity] at hcap
  have hpos := List.length_pos_of_ne_nil hb
  have hlen : s.accepted.length = s.returned.length + (inHand s.readPc).length +
      s.stream.dataChannel.buffer.length := by
    rw [h.recorded.order, List.length_append, List.length_append]
  have hclose : step s .closeByRemote = some s.stepClose := rfl
  have hclosed := stepClose_closed s
  have hread : s.stepClose.readPc = cancelRead s.readPc := by
    rw [stepClose, if_neg (by simp [hopen])]
  have hrecord : s.stepClose.returned = s.returned ∧ s.stepClose.completed = s.completed := by
    rw [stepClose, if_neg (by simp [hopen])]
    exact ⟨rfl, rfl⟩
  cases hpc : s.readPc with
  | idle =>
      rw [hpc] at hread hlen
      refine ⟨[.read], { s.stepClose with readFailed := true }, ?_, ?_⟩
      · rw [exec_cons_of_step hclose]
        simp [exec, step, hread, cancelRead, stepRead, MuxStream.read, hclosed]
      · intro hd
        have hlt := hd.2 rfl (s.accepted.length - 1) (by simpa [hrecord.2] using hdone)
        simp only [hrecord.1, inHand, List.length_nil] at hlt hlen
        omega
  | receiving =>
      have hidle := hw.receivers
      rw [hpc] at hidle
      exact absurd (s.stream.dataChannel.receivers_idle (by rw [hidle]; simp)).1 hb
  | received chunk =>
      rw [hpc] at hread hlen
      refine ⟨[.readResume, .read],
        { s.stepClose with
          readPc := .idle, returned := s.returned ++ [chunk], readFailed := true }, ?_, ?_⟩
      · rw [exec_cons_of_step hclose]
        simp [exec, step, hread, cancelRead, stepRead, MuxStream.read, hclosed, hrecord.1]
      · intro hd
        have hlt := hd.2 rfl (s.accepted.length - 1) (by simpa [hrecord.2] using hdone)
        simp only [inHand, List.length_append, List.length_singleton] at hlt hlen
        omega
  | cancelled =>
      have hc := h.cancelled hpc
      rw [hopen] at hc
      cases hc

/-- **When a remote close loses nothing.**  In every run in which `Close(true)` never finds a
buffered chunk whose `Offer` has completed, every chunk completed before it is returned, in
order, before any `Read` returns an error.  The condition is exact: from any state of any run, a
`Close(true)` against it can be followed by a `Read` that fails with the chunk unread. -/
theorem remoteClose_delivers_of_nothingBuffered :
    (∀ (as : List (StreamAction κ μ)) (s : StreamState κ μ),
        Along step NothingBuffered init as → exec step init as = some s → Delivered s) ∧
      ∀ (as : List (StreamAction κ μ)) (s : StreamState κ μ) (a : StreamAction κ μ),
        exec step init as = some s → ¬ NothingBuffered s a →
        ∃ bs s', exec step s (a :: bs) = some s' ∧ ¬ Delivered s' := by
  refine ⟨fun as s halong h => ?_, fun as s a h => close_loses_chunk (run_inv h)⟩
  have hinv : Inv s ∧ ReachedReader s :=
    exec_invariant_along (I := fun s => Inv s ∧ ReachedReader s)
      (fun _ _ _ hs hC hstep => ⟨step_inv hs.1 hstep, step_reachedReader hs.1 hs.2 hC hstep⟩)
      ⟨inv_init, fun hc => by cases hc⟩ halong h
  exact delivered_of_reachedReader hinv.1 hinv.2

/-- The last chunk of a download: its `Offer` completes, the close request is processed, and the
transfer loop comes back for the next chunk. -/
def lastChunkRun : List (StreamAction Unit ℕ) :=
  [.offer () 7, .offerResume (), .closeByRemote, .read]

/-- The chunk was accepted and its `Offer` completed, `Read` returned an error, and nothing was
returned. -/
theorem remoteClose_loses_lastChunk :
    ∃ s, exec step init lastChunkRun = some s ∧ s.accepted = [7] ∧ s.completed = [0] ∧
      s.readFailed = true ∧ s.returned = [] ∧ ¬ Delivered s := by
  refine ⟨_, rfl, rfl, rfl, rfl, rfl, ?_⟩
  rintro ⟨-, hall⟩
  have hlt : 0 < 0 := hall rfl 0 List.mem_cons_self
  omega

end Snova.StreamState
