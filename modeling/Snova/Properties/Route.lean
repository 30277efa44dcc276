import Snova.Model.Route
import Snova.Properties.Connection
import Snova.Properties.StreamClose

/-!
# What a socket gets is what the other one sent

The chunks of one stream pass through four hands: the transfer that writes them, the connection,
the read loop with the stream's channel, and the transfer that reads them.  Each keeps their order,
and none takes one before the one ahead of it, so what arrives at the end is at every moment a first
part of what was read at the beginning.  `Issues` says this of the writing end, against the calls
whose frames have been sent; `Fed` of the receiving end, against the chunks that
`ProcessReadEvent` has seen.  In between, the connection is a queue (`Connection.Carries`).
-/

namespace Snova

variable {κ : Type} {A : Aead} {pb : Nanopb}

/-! ## The receiving end -/

namespace Outlet

variable {o : Outlet} {arrived : List Bytes} {chunk : Bytes}

/-- The chunk of an `Offer` that waits for room in the channel. -/
def sending (stream : StreamState Unit Bytes) : List Bytes :=
  match stream.offerPc () with
  | .sending chunk => [chunk]
  | _ => []

/-- The chunk that is being written to the socket. -/
def sinkHeld : SinkPc → List Bytes
  | .writing chunk => [chunk]
  | _ => []

/-- The chunks that came for a stream, and where they are. -/
structure Fed (o : Outlet) (arrived : List Bytes) : Prop where
  inv : o.stream.Inv
  isOpen : o.registered = true → o.stream.stream.closed = false
  unmade : o.made = false → o.registered = false ∧ o.stream.stream.closed = false
  sublist : (o.stream.accepted ++ sending o.stream).Sublist arrived
  whole : o.dropped = [] → o.stream.accepted ++ sending o.stream <+: arrived
  all : o.dropped = [] → o.stream.stream.closed = false →
    o.stream.accepted ++ sending o.stream = arrived
  sink : o.written ++ sinkHeld o.pc <+: o.stream.returned
  sinkAll : o.pc ≠ .ended → o.written ++ sinkHeld o.pc = o.stream.returned
  waits : o.stream.readPc ≠ .idle → o.pc = .reading

lemma fed_new : Fed Route.newOutlet [] where
  inv := StreamState.inv_init
  isOpen := fun h => by cases h
  unmade := fun _ => ⟨rfl, rfl⟩
  sublist := .slnil
  whole := fun _ => List.prefix_refl _
  all := fun _ _ => rfl
  sink := List.prefix_refl _
  sinkAll := fun _ => rfl
  waits := fun h => absurd rfl h

lemma sending_of_idle {stream : StreamState Unit Bytes} (h : stream.offerPc () = .idle) :
    sending stream = [] := by
  rw [sending, h]

/-- An `Offer` of the read loop adds its chunk, in the channel or in front of it. -/
lemma accepted_stepOffer {stream : StreamState Unit Bytes} (chunk : Bytes) (hinv : stream.Inv)
    (hclosed : stream.stream.closed = false) :
    (stream.stepOffer () chunk).accepted ++ sending (stream.stepOffer () chunk) =
        stream.accepted ++ [chunk] ∧
      (stream.stepOffer () chunk).returned = stream.returned ∧
      ((stream.stepOffer () chunk).readPc ≠ .idle → stream.readPc ≠ .idle) := by
  have hwired := hinv.wired hclosed
  have hspec := StreamState.stepOffer_spec () chunk hclosed hwired.isOpen
  revert hspec
  generalize stream.stepOffer () chunk = stream'
  intro hspec
  cases hspec with
  | handed hreceivers =>
      refine ⟨?_, rfl, fun _ => ?_⟩
      · simp [StreamState.accept, sending]
      · simp [hwired.receiving hreceivers]
  | buffered => exact ⟨by simp [StreamState.accept, sending], rfl, id⟩
  | suspended => exact ⟨by simp [sending], rfl, id⟩

lemma Fed.offer (h : Fed o arrived) (hregistered : o.registered = true)
    (hidle : o.stream.offerPc () = .idle) :
    Fed { o with stream := o.stream.stepOffer () chunk } (arrived ++ [chunk]) := by
  have hclosed := h.isOpen hregistered
  obtain ⟨haccepted, hreturned, hread⟩ := accepted_stepOffer chunk h.inv hclosed
  have hinv : (o.stream.stepOffer () chunk).Inv := by
    refine StreamState.step_inv (a := .offer () chunk) h.inv ?_
    simp only [StreamState.step, hidle]
  have hkept : (o.stream.stepOffer () chunk).stream.closed = false :=
    (StreamState.stepOffer_spec () chunk hclosed (h.inv.wired hclosed).isOpen).closed_eq
  have hnone := sending_of_idle hidle
  refine ⟨hinv, fun _ => hkept, fun hmade => ⟨(h.unmade hmade).1, hkept⟩, ?_, fun hd => ?_,
    fun hd _ => ?_, ?_, fun hpc => ?_, fun hpc => ?_⟩
  · have hsub := h.sublist
    rw [hnone, List.append_nil] at hsub
    rw [haccepted]
    exact hsub.append_right [chunk]
  · have hall := h.all hd hclosed
    rw [hnone, List.append_nil] at hall
    rw [haccepted, hall]
  · have hall := h.all hd hclosed
    rw [hnone, List.append_nil] at hall
    rw [haccepted, hall]
  · exact hreturned.symm ▸ h.sink
  · exact hreturned.symm ▸ h.sinkAll hpc
  · exact h.waits (hread hpc)

lemma Fed.drop (h : Fed o arrived) :
    Fed { o with dropped := o.dropped ++ [chunk] } (arrived ++ [chunk]) where
  inv := h.inv
  isOpen := h.isOpen
  unmade := h.unmade
  sublist := h.sublist.trans (List.sublist_append_left _ _)
  whole := fun hd => by simp at hd
  all := fun hd => by simp at hd
  sink := h.sink
  sinkAll := h.sinkAll
  waits := h.waits

lemma Fed.register (h : Fed o arrived) (hmade : o.made = false) :
    Fed { o with made := true, registered := true } arrived where
  inv := h.inv
  isOpen := fun _ => (h.unmade hmade).2
  unmade := Bool.noConfusion
  sublist := h.sublist
  whole := h.whole
  all := h.all
  sink := h.sink
  sinkAll := h.sinkAll
  waits := h.waits

lemma Fed.close (h : Fed o arrived) (hregistered : o.registered = true) :
    Fed { o with registered := false, stream := o.stream.stepClose } arrived := by
  have hinv : o.stream.stepClose.Inv := StreamState.step_inv (a := .closeByRemote) h.inv rfl
  have hclosed := StreamState.stepClose_closed o.stream
  have hkeep : o.stream.stepClose.accepted = o.stream.accepted ∧
      o.stream.stepClose.returned = o.stream.returned ∧
      sending o.stream.stepClose <+: sending o.stream ∧
      (o.stream.stepClose.readPc ≠ .idle → o.stream.readPc ≠ .idle) := by
    rw [StreamState.stepClose]
    split
    · exact ⟨rfl, rfl, List.prefix_refl _, id⟩
    · refine ⟨rfl, rfl, ?_, fun hread hidle => hread ?_⟩
      · simp only [sending]
        cases o.stream.offerPc () <;> exact List.nil_prefix
      · simp only [hidle]
        rfl
  obtain ⟨haccepted, hreturned, hsending, hread⟩ := hkeep
  have hprefix : o.stream.stepClose.accepted ++ sending o.stream.stepClose <+:
      o.stream.accepted ++ sending o.stream := by
    rw [haccepted]
    exact (List.prefix_append_right_inj _).mpr hsending
  refine ⟨hinv, Bool.noConfusion, fun hmade => ?_, hprefix.sublist.trans h.sublist,
    fun hd => hprefix.trans (h.whole hd), fun _ hopen => ?_, ?_, fun hpc => ?_, fun hpc => ?_⟩
  · rw [(h.unmade hmade).1] at hregistered
    cases hregistered
  · rw [hclosed] at hopen
    cases hopen
  · exact hreturned.symm ▸ h.sink
  · exact hreturned.symm ▸ h.sinkAll hpc
  · exact h.waits (hread hpc)

lemma Fed.offerResume {stream : StreamState Unit Bytes} (h : Fed o arrived)
    (hstep : o.stream.step (.offerResume ()) = some stream) :
    Fed { o with stream := stream } arrived ∧ stream.offerPc () = .idle := by
  have hinv := StreamState.step_inv h.inv hstep
  have hkeep : stream.accepted = o.stream.accepted ∧ stream.returned = o.stream.returned ∧
      sending stream = sending o.stream ∧ stream.readPc = o.stream.readPc ∧
      stream.stream = o.stream.stream ∧ stream.offerPc () = .idle := by
    simp only [StreamState.step] at hstep
    split at hstep
    · next hpc =>
        obtain rfl := Option.some.inj hstep
        exact ⟨rfl, rfl, by simp [sending, hpc], rfl, rfl, by simp⟩
    · next hpc =>
        obtain rfl := Option.some.inj hstep
        exact ⟨rfl, rfl, by simp [sending, hpc], rfl, rfl, by simp⟩
    · cases hstep
  obtain ⟨haccepted, hreturned, hsending, hread, hstream, hidle⟩ := hkeep
  refine ⟨⟨hinv, ?_, ?_, ?_, ?_, ?_, ?_, ?_, ?_⟩, hidle⟩
  · exact hstream.symm ▸ h.isOpen
  · exact hstream.symm ▸ h.unmade
  · rw [haccepted, hsending]
    exact h.sublist
  · rw [haccepted, hsending]
    exact h.whole
  · rw [haccepted, hsending, hstream]
    exact h.all
  · exact hreturned.symm ▸ h.sink
  · exact hreturned.symm ▸ h.sinkAll
  · exact hread.symm ▸ h.waits

/-- A `Read` takes nothing away from what was accepted, and adds the chunk of an `Offer` it lets
in. -/
lemma accepted_stepRead {stream : StreamState Unit Bytes} (hinv : stream.Inv) :
    stream.stepRead.accepted ++ sending stream.stepRead = stream.accepted ++ sending stream ∧
      stream.stepRead.returned = stream.returned ∧
      stream.stepRead.stream.closed = stream.stream.closed ∧
      (stream.stream.closed = true → stream.stepRead.readPc = stream.readPc) ∧
      (stream.offerPc () = .idle → stream.stepRead.offerPc () = .idle) := by
  cases hclosed : stream.stream.closed with
  | true =>
      have hfailed : stream.stepRead = { stream with readFailed := true } := by
        simp [StreamState.stepRead, MuxStream.read, hclosed]
      rw [hfailed]
      exact ⟨rfl, rfl, hclosed, fun _ => rfl, id⟩
  | false =>
      have hwired := hinv.wired hclosed
      have hspec := StreamState.stepRead_spec hclosed hwired.isOpen
        (by rw [hwired.capacity]; exact Nat.one_pos) hwired.senders
      have hkept := hspec.closed_eq
      revert hspec
      generalize stream.stepRead = stream' at hkept ⊢
      intro hspec
      cases hspec with
      | taken => exact ⟨rfl, rfl, hkept, Bool.noConfusion, id⟩
      | @refilled ch chunk chunk' chunks c rest hbuffer hsenders =>
          obtain ⟨d, hd, hsends⟩ := hwired.senders (some c, chunk') (by rw [hsenders]; simp)
          obtain rfl := Option.some.inj hd
          refine ⟨?_, rfl, hkept, Bool.noConfusion, fun hidle => ?_⟩
          · simp [StreamState.accept, sending, hsends]
          · rw [hidle] at hsends
            cases hsends
      | suspended => exact ⟨rfl, rfl, hkept, Bool.noConfusion, id⟩

lemma Fed.sinkRead {stream : StreamState Unit Bytes} (h : Fed o arrived) (hpc : o.pc = .starting)
    (hstep : o.stream.step .read = some stream) :
    Fed { o with
      stream := stream
      pc := if o.stream.stream.closed then .ended else .reading } arrived ∧
      (o.stream.offerPc () = .idle → stream.offerPc () = .idle) := by
  have hinv := StreamState.step_inv h.inv hstep
  have hread : o.stream.readPc = .idle ∧ stream = o.stream.stepRead := by
    simp only [StreamState.step] at hstep
    split at hstep
    · next hidle => exact ⟨hidle, (Option.some.inj hstep).symm⟩
    · cases hstep
  obtain ⟨hidle, rfl⟩ := hread
  obtain ⟨haccepted, hreturned, hclosed, hkept, hoffer⟩ := accepted_stepRead h.inv
  have hwritten : o.written = o.stream.returned := by
    have hall := h.sinkAll (by simp [hpc])
    rw [hpc] at hall
    exact (List.append_nil _).symm.trans hall
  refine ⟨⟨hinv, ?_, ?_, ?_, ?_, ?_, ?_, fun hne => ?_, fun hne => ?_⟩, hoffer⟩
  · exact hclosed.symm ▸ h.isOpen
  · exact hclosed.symm ▸ h.unmade
  · exact haccepted.symm ▸ h.sublist
  · exact haccepted.symm ▸ h.whole
  · rw [haccepted, hclosed]
    exact h.all
  · refine hreturned.symm ▸ ?_
    split <;> simp [sinkHeld, hwritten]
  · refine hreturned.symm ▸ ?_
    split <;> simp [sinkHeld, hwritten]
  · split
    · next hc =>
        refine absurd ?_ hne
        rw [hkept hc, hidle]
    · rfl

lemma Fed.sinkResume {stream : StreamState Unit Bytes} (h : Fed o arrived) (hpc : o.pc = .reading)
    (hstep : o.stream.step .readResume = some stream) :
    Fed { o with
      stream := stream
      pc := match o.stream.readPc with
        | .received chunk => .writing chunk
        | _ => .ended } arrived ∧ stream.offerPc = o.stream.offerPc := by
  have hinv := StreamState.step_inv h.inv hstep
  have hwritten : o.written = o.stream.returned := by
    have hall := h.sinkAll (by simp [hpc])
    rw [hpc] at hall
    exact (List.append_nil _).symm.trans hall
  simp only [StreamState.step] at hstep
  split at hstep
  · next chunk hread =>
      obtain rfl := Option.some.inj hstep
      refine ⟨⟨hinv, h.isOpen, h.unmade, h.sublist, h.whole, h.all, ?_, fun _ => ?_, fun hne => ?_⟩,
        rfl⟩
      · simp [hread, sinkHeld, hwritten]
      · simp [hread, sinkHeld, hwritten]
      · exact absurd rfl hne
  · next hread =>
      obtain rfl := Option.some.inj hstep
      refine ⟨⟨hinv, h.isOpen, h.unmade, h.sublist, h.whole, h.all, ?_, fun hne => ?_,
        fun hne => ?_⟩, rfl⟩
      · simp [hread, sinkHeld, hwritten]
      · simp [hread] at hne
      · exact absurd rfl hne
  · cases hstep

lemma Fed.sinkWrote (h : Fed o arrived) (hpc : o.pc = .writing chunk) (success : Bool) :
    Fed (if success then { o with pc := .starting, written := o.written ++ [chunk] }
      else { o with pc := .ended }) arrived := by
  have hall : o.written ++ [chunk] = o.stream.returned := by
    have hall := h.sinkAll (by simp [hpc])
    rwa [hpc] at hall
  have hidle : o.stream.readPc = .idle := by
    by_contra hne
    rw [h.waits hne] at hpc
    cases hpc
  split
  · have hnow : (o.written ++ [chunk]) ++ [] = o.stream.returned :=
      (List.append_nil _).trans hall
    exact ⟨h.inv, h.isOpen, h.unmade, h.sublist, h.whole, h.all, hnow ▸ List.prefix_refl _,
      fun _ => hnow, fun hne => absurd hidle hne⟩
  · have hnow : o.written ++ [] <+: o.stream.returned := by
      rw [← hall, List.append_nil]
      exact List.prefix_append _ _
    exact ⟨h.inv, h.isOpen, h.unmade, h.sublist, h.whole, h.all, hnow, fun hne => absurd rfl hne,
      fun hne => absurd hidle hne⟩

/-- What the socket got are the first of the chunks the stream has let in. -/
lemma Fed.written_prefix (h : Fed o arrived) :
    o.written <+: o.stream.accepted ++ sending o.stream := by
  have hreturned : o.stream.returned <+: o.stream.accepted := by
    rw [h.inv.recorded.order, List.append_assoc]
    exact List.prefix_append _ _
  calc o.written <+: o.written ++ sinkHeld o.pc := List.prefix_append _ _
    _ <+: o.stream.returned := h.sink
    _ <+: o.stream.accepted := hreturned
    _ <+: o.stream.accepted ++ sending o.stream := List.prefix_append _ _

end Outlet

/-! ## The writing end -/

section Issues

variable {sid : UInt32} {started : List MuxEvent} {done calls : List (ℕ × MuxEvent)}
  {source : Source} {event : MuxEvent} {x : ℕ × MuxEvent}

/-- The calls that were started, with their numbers. -/
def numbered (started : List MuxEvent) : List (ℕ × MuxEvent) :=
  started.mapIdx fun i event => (i, event)

/-- The calls of one stream. -/
def own (sid : UInt32) (calls : List (ℕ × MuxEvent)) : List (ℕ × MuxEvent) :=
  calls.filter fun x => x.2.head.sid = sid

lemma numbered_concat (started : List MuxEvent) (event : MuxEvent) :
    numbered (started ++ [event]) = numbered started ++ [(started.length, event)] := by
  rw [numbered, List.mapIdx_append]
  simp [numbered]

lemma mem_numbered : x ∈ numbered started ↔ started[x.1]? = some x.2 := by
  rw [numbered, List.mem_mapIdx]
  constructor
  · rintro ⟨i, hi, rfl⟩
    exact List.getElem?_eq_getElem hi
  · intro h
    obtain ⟨hi, hx⟩ := List.getElem?_eq_some_iff.mp h
    exact ⟨x.1, hi, by rw [hx]⟩

lemma nodup_numbered (started : List MuxEvent) : ((numbered started).map Prod.fst).Nodup := by
  have hfst : (numbered started).map Prod.fst = List.range started.length := by
    refine List.ext_getElem (by simp [numbered]) fun i _ _ => ?_
    simp [numbered]
  rw [hfst]
  exact List.nodup_range

lemma map_snd_numbered (started : List MuxEvent) : (numbered started).map Prod.snd = started := by
  refine List.ext_getElem (by simp [numbered]) fun i _ _ => ?_
  simp [numbered]

lemma own_append (sid : UInt32) (l m : List (ℕ × MuxEvent)) :
    own sid (l ++ m) = own sid l ++ own sid m :=
  List.filter_append ..

lemma own_singleton_of_eq (h : x.2.head.sid = sid) : own sid [x] = [x] := by
  simp [own, h]

lemma own_singleton_of_ne (h : x.2.head.sid ≠ sid) : own sid [x] = [] := by
  simp [own, h]

lemma mem_own : x ∈ own sid calls ↔ x ∈ calls ∧ x.2.head.sid = sid := by
  simp [own]

/-- The chunks of one stream are those of its calls. -/
lemma filterMap_own (sid : UInt32) (calls : List (ℕ × MuxEvent)) :
    (own sid calls).filterMap (fun x => chunkOf sid x.2) =
      calls.filterMap fun x => chunkOf sid x.2 := by
  rw [own, List.filterMap_filter]
  refine List.filterMap_congr fun x _ => ?_
  by_cases h : x.2.head.sid = sid
  · simp [h]
  · simp [chunkOf, h]

/-- The calls of a stream go one after the other: at most the last one has not had its frame sent,
and it is the one its transfer is in, if that has not ended. -/
structure Issues (sid : UInt32) (started : List MuxEvent) (done : List (ℕ × MuxEvent))
    (source : Source) : Prop where
  tail : ∃ tail, own sid (numbered started) = own sid done ++ tail ∧ tail.length ≤ 1 ∧
    (source.pc = .reading → tail = []) ∧
    ∀ call, source.pc = .writing call ∨ source.pc = .closing call → ∀ x ∈ tail, x.1 = call
  read : started.filterMap (chunkOf sid) = source.read

/-- What is behind the calls of a stream in `done` is not in `done`. -/
lemma not_mem_of_tail {tail : List (ℕ × MuxEvent)}
    (heq : own sid (numbered started) = own sid done ++ tail) (hx : x ∈ tail) : x ∉ done := by
  intro hdone
  have hown : x ∈ own sid (numbered started) := by
    rw [heq]
    exact List.mem_append_right _ hx
  have hnodup : (own sid (numbered started)).Nodup :=
    (List.Nodup.of_map _ (nodup_numbered started)).filter _
  rw [heq] at hnodup
  exact (List.nodup_append.mp hnodup).2.2 x (mem_own.mpr ⟨hdone, (mem_own.mp hown).2⟩) x hx rfl

/-- The frame of a call has been sent. -/
lemma Issues.sent (h : Issues sid started done source) (hx : x ∈ numbered started)
    (hnew : x ∉ done) : Issues sid started (done ++ [x]) source := by
  obtain ⟨⟨tail, heq, hlen, hreading, hcall⟩, hread⟩ := h
  by_cases hsid : x.2.head.sid = sid
  · have hmem : x ∈ own sid done ++ tail := heq ▸ mem_own.mpr ⟨hx, hsid⟩
    have htail : x ∈ tail := (List.mem_append.mp hmem).resolve_left fun hdone =>
      hnew (mem_own.mp hdone).1
    obtain rfl : tail = [x] := by
      obtain ⟨y, rfl⟩ := List.length_eq_one_iff.mp
        (le_antisymm hlen (List.length_pos_of_mem htail))
      rw [List.mem_singleton.mp htail]
    refine ⟨⟨[], ?_, Nat.zero_le _, fun _ => rfl, fun _ _ y hy => absurd hy List.not_mem_nil⟩,
      hread⟩
    rw [heq, own_append, own_singleton_of_eq hsid, List.append_nil]
  · refine ⟨⟨tail, ?_, hlen, hreading, hcall⟩, hread⟩
    rw [heq, own_append, own_singleton_of_ne hsid, List.append_nil]

/-- The transfer starts a call. -/
lemma Issues.start {source' : Source} (h : Issues sid started done source)
    (hpc : source.pc = .reading) (hsid : event.head.sid = sid)
    (hpc' : source'.pc = .writing started.length ∨ source'.pc = .closing started.length)
    (hread : source'.read = source.read ++ (chunkOf sid event).toList) :
    Issues sid (started ++ [event]) done source' := by
  obtain ⟨⟨tail, heq, -, hreading, -⟩, hold⟩ := h
  obtain rfl := hreading hpc
  refine ⟨⟨[(started.length, event)], ?_, le_rfl, fun hnow => ?_, fun call hcall y hy => ?_⟩, ?_⟩
  · rw [numbered_concat, own_append, heq, List.append_nil, own_singleton_of_eq (by exact hsid)]
  · rw [hnow] at hpc'
    rcases hpc' with hpc' | hpc' <;> cases hpc'
  · rw [List.mem_singleton.mp hy]
    rcases hpc' with hpc' | hpc'
    · rw [hpc'] at hcall
      rcases hcall with hcall | hcall
      · exact SourcePc.writing.inj hcall
      · cases hcall
    · rw [hpc'] at hcall
      rcases hcall with hcall | hcall
      · cases hcall
      · exact SourcePc.closing.inj hcall
  · rw [List.filterMap_append, hold, hread]
    cases hchunk : chunkOf sid event <;> simp [hchunk]

/-- Another transfer starts a call. -/
lemma Issues.other (h : Issues sid started done source) (hsid : event.head.sid ≠ sid) :
    Issues sid (started ++ [event]) done source := by
  obtain ⟨⟨tail, heq, hlen, hreading, hcall⟩, hread⟩ := h
  refine ⟨⟨tail, ?_, hlen, hreading, hcall⟩, ?_⟩
  · rw [numbered_concat, own_append, own_singleton_of_ne (by exact hsid), List.append_nil, heq]
  · simp [hread, chunkOf, hsid]

/-- The call has returned. -/
lemma Issues.resume {call : ℕ} {pc : SourcePc} (h : Issues sid started done source)
    (hpc : source.pc = .writing call ∨ source.pc = .closing call)
    (hdone : ∀ x ∈ done, x ∈ numbered started)
    (hpc' : pc = .reading ∧ call ∈ done.map Prod.fst ∨ pc = .ended) :
    Issues sid started done { source with pc := pc } := by
  obtain ⟨⟨tail, heq, hlen, hreading, hcall⟩, hread⟩ := h
  refine ⟨⟨tail, heq, hlen, fun hnow => ?_, fun call' hnow => ?_⟩, hread⟩
  · rcases hpc' with ⟨-, hmem⟩ | hended
    · -- a call that has returned true has had its frame sent
      obtain ⟨y, hy, hcally⟩ := List.mem_map.mp hmem
      refine List.eq_nil_iff_forall_not_mem.mpr fun x hx => not_mem_of_tail heq hx ?_
      have hown : x ∈ own sid (numbered started) := by
        rw [heq]
        exact List.mem_append_right _ hx
      have hxget := mem_numbered.mp (mem_own.mp hown).1
      have hyget := mem_numbered.mp (hdone y hy)
      rw [hcally, ← hcall call hpc x hx, hxget] at hyget
      have hxy : x = y := Prod.ext ((hcall call hpc x hx).trans hcally.symm) (Option.some.inj hyget)
      exact hxy ▸ hy
    · rw [hended] at hnow
      cases hnow
  · rcases hpc' with ⟨hr, -⟩ | hended
    · rw [hr] at hnow
      rcases hnow with hnow | hnow <;> cases hnow
    · rw [hended] at hnow
      rcases hnow with hnow | hnow <;> cases hnow

/-- The chunks of the calls on the wire are a first part of those that were read. -/
lemma Issues.prefix_of_read {s : WriterState κ} {key : Bytes} {iv₀ : UInt64}
    (h : Issues sid started s.done source)
    (hwire : WriterState.OnWire A pb key iv₀ s started calls) :
    (calls.filterMap fun x => chunkOf sid x.2) <+: source.read := by
  obtain ⟨⟨tail, heq, hlen, -, -⟩, hread⟩ := h
  have hown : own sid calls <+: own sid (numbered started) := by
    obtain ⟨more, rfl⟩ := hwire.done
    have hmore : more.length ≤ 1 := by
      have hlength := hwire.length
      rw [List.length_append] at hlength
      omega
    rw [own_append, heq, List.prefix_append_right_inj]
    rcases Nat.lt_or_ge 0 more.length with hpos | hzero
    · obtain ⟨x, rfl⟩ := List.length_eq_one_iff.mp (le_antisymm hmore hpos)
      by_cases hsid : x.2.head.sid = sid
      · -- it has been started and its frame has not been sent
        have hnew : x ∉ s.done := by
          intro hdone
          have hnodup := hwire.nodup
          rw [List.map_append, List.nodup_append] at hnodup
          exact hnodup.2.2 x.1 (List.mem_map_of_mem hdone) x.1 (by simp) rfl
        have hstarted : x ∈ numbered started := mem_numbered.mpr (hwire.started x (by simp))
        have hmem : x ∈ own sid s.done ++ tail := heq ▸ mem_own.mpr ⟨hstarted, hsid⟩
        have htail : x ∈ tail := (List.mem_append.mp hmem).resolve_left fun hdone =>
          hnew (mem_own.mp hdone).1
        obtain ⟨y, rfl⟩ := List.length_eq_one_iff.mp
          (le_antisymm hlen (List.length_pos_of_mem htail))
        rw [own_singleton_of_eq hsid, List.mem_singleton.mp htail]
      · rw [own_singleton_of_ne hsid]
        exact List.nil_prefix
    · rw [List.length_eq_zero_iff.mp (Nat.le_zero.mp hzero)]
      exact List.nil_prefix
  have hall : (numbered started).filterMap (fun x => chunkOf sid x.2) = source.read := by
    rw [← hread, ← map_snd_numbered started, List.filterMap_map, map_snd_numbered]
    rfl
  rw [← filterMap_own, ← hall, ← filterMap_own sid (numbered started)]
  exact hown.filterMap _

end Issues

/-! ## Both ends -/

lemma StreamState.stepClose_idle {stream : StreamState Unit Bytes}
    (h : stream.offerPc () = .idle) : stream.stepClose.offerPc () = .idle := by
  rw [stepClose]
  split
  · exact h
  · show StreamState.cancelOffer (stream.offerPc ()) = .idle
    rw [h]
    rfl

lemma WriterState.step_done [DecidableEq κ] {s s' : WriterState κ} {key : Bytes}
    {a : WriteAction κ} (hk : s.cipherCtx.Keyed key) (h : step A pb s a = some s') :
    s'.done = s.done ∨ ∃ x, s'.done = s.done ++ [x] ∧ a.started = [] := by
  obtain ⟨hspec, -⟩ := step_spec hk h
  cases hspec with
  | write idle henters => exact .inl henters.same.done
  | resume locking henters => exact .inl henters.same.done
  | transmit => exact .inl rfl
  | complete writing all hleft => exact .inr ⟨_, hleft.same.done, rfl⟩
  | writeError writing hleft => exact .inl hleft.same.done
  | unlocked => exact .inl rfl
  | close => exact .inl rfl

lemma ReaderState.step_events {s s' : ReaderState} {a : ReaderAction}
    (h : step A pb s a = some s') : s.events <+: s'.events := by
  have hafter : ∀ (r : ReaderState) (p : Reader × ReadStatus),
      r.events <+: (r.afterRead p).events := by
    intro r p
    rw [afterRead]
    split
    · exact List.prefix_refl _
    · split
      · exact List.prefix_append _ _
      · exact List.prefix_refl _
  cases a with
  | readEvent =>
      simp only [step] at h
      split at h
      · obtain rfl := Option.some.inj h
        exact hafter _ _
      · cases h
  | data bs =>
      simp only [step] at h
      split at h
      · split at h
        · obtain rfl := Option.some.inj h
          exact hafter { s with received := s.received ++ bs } _
        · cases h
      · cases h
  | error rc =>
      simp only [step] at h
      split at h
      · split at h
        · cases h
        · obtain rfl := Option.some.inj h
          exact List.prefix_refl _
      · cases h

/-- Events that the two ends do not tell apart have the same chunk. -/
lemma MuxEvent.Same.chunkOf {a b : MuxEvent} {sid : UInt32} (h : a.Same b) :
    Snova.chunkOf sid a = Snova.chunkOf sid b := by
  obtain ⟨htype, hsid, -, hpayload⟩ := h
  have hbody : a.body.type = b.body.type := (a.type_eq.symm.trans htype).trans b.type_eq
  have hchunk : ∀ body : EventBody, body.chunkBytes =
      match body.payload with
      | .bytes bs => if body.type = 5 then some bs else none
      | .message .. => none := by
    intro body
    cases body <;> rfl
  rw [Snova.chunkOf, Snova.chunkOf, hsid, hchunk, hchunk, hpayload, hbody]

lemma chunks_eq_of_same {sid : UInt32} {events : List MuxEvent} {calls : List (ℕ × MuxEvent)}
    (h : List.Forall₂ (fun event x => event.Same x.2) events calls) :
    events.filterMap (chunkOf sid) = calls.filterMap fun x => chunkOf sid x.2 := by
  induction h with
  | nil => rfl
  | cons hab _ ih => rw [List.filterMap_cons, List.filterMap_cons, hab.chunkOf, ih]

namespace Route

open Outlet (Fed)

variable [DecidableEq κ] [Fintype κ] {s s' : Route κ} {key : Bytes} {iv₀ : UInt64}
  {receiver : CipherContext} {sid : UInt32} {c : κ}

/-- What a step of a route does. -/
inductive StepTo (A : Aead) (pb : Nanopb) (s : Route κ) : RouteAction κ → Route κ → Prop
  | sourceRead {c : κ} {buf : Bytes} {env : WriteEnv} {s' : Route κ}
      (hpc : (s.source c).pc = .reading) (hlen : buf.length ≤ kMaxChunkSize)
      (hwrite : s.writeChunk A pb c buf env = some s') : StepTo A pb s (.sourceRead c buf env) s'
  | sourceEnd {c : κ} {env : WriteEnv} {s' : Route κ} (hpc : (s.source c).pc = .reading)
      (hwrite : s.writeClose A pb c env = some s') : StepTo A pb s (.sourceEnd c env) s'
  | sourceResume {c : κ} {s' : Route κ} (hresume : s.resumeSource c = some s') :
      StepTo A pb s (.sourceResume c) s'
  | conn {a : ConnectionAction κ} {s' : Route κ}
      (ha : ∀ c event env, a ≠ .write (.write c event env))
      (hconn : s.stepConn A pb a = some s') : StepTo A pb s (.conn a) s'
  | process {event : MuxEvent} (hoffering : s.offering = none)
      (hevent : s.conn.reader.events[s.processed]? = some event) :
      StepTo A pb s .process { s.processEvent event with processed := s.processed + 1 }
  | offerResume {sid : UInt32} {stream : StreamState Unit Bytes} (hsid : s.offering = some sid)
      (hstream : (s.outlet sid).stream.step (.offerResume ()) = some stream) :
      StepTo A pb s .offerResume
        { s.setOutlet sid { s.outlet sid with stream := stream } with offering := none }
  | register {sid : UInt32} (hmade : (s.outlet sid).made = false) :
      StepTo A pb s (.register sid)
        (s.setOutlet sid { s.outlet sid with made := true, registered := true })
  | closeOutlet {sid : UInt32} (hregistered : (s.outlet sid).registered = true) :
      StepTo A pb s (.closeOutlet sid) (s.close sid)
  | sinkRead {sid : UInt32} {stream : StreamState Unit Bytes} (hmade : (s.outlet sid).made = true)
      (hpc : (s.outlet sid).pc = .starting)
      (hstream : (s.outlet sid).stream.step .read = some stream) :
      StepTo A pb s (.sinkRead sid) (s.setOutlet sid { s.outlet sid with
        stream := stream
        pc := if (s.outlet sid).stream.stream.closed then .ended else .reading })
  | sinkResume {sid : UInt32} {stream : StreamState Unit Bytes}
      (hpc : (s.outlet sid).pc = .reading)
      (hstream : (s.outlet sid).stream.step .readResume = some stream) :
      StepTo A pb s (.sinkResume sid) (s.setOutlet sid { s.outlet sid with
        stream := stream
        pc := match (s.outlet sid).stream.readPc with
          | .received chunk => .writing chunk
          | _ => .ended })
  | sinkWrote {sid : UInt32} {success : Bool} {chunk : Bytes}
      (hpc : (s.outlet sid).pc = .writing chunk) :
      StepTo A pb s (.sinkWrote sid success) (s.setOutlet sid
        (if success then { s.outlet sid with
          pc := .starting, written := (s.outlet sid).written ++ [chunk] }
        else { s.outlet sid with pc := .ended }))

omit [Fintype κ] in
lemma stepTo_of_step {a : RouteAction κ} (hstep : step A pb s a = some s') :
    StepTo A pb s a s' := by
  cases a with
  | sourceRead c buf env =>
      simp only [step] at hstep
      split at hstep
      · next hguard => exact .sourceRead hguard.1 hguard.2.2 hstep
      · cases hstep
  | sourceEnd c env =>
      simp only [step] at hstep
      split at hstep
      · next hpc => exact .sourceEnd hpc hstep
      · cases hstep
  | sourceResume c => exact .sourceResume hstep
  | conn a =>
      cases a with
      | write a =>
          cases a with
          | write c event env => cases hstep
          | _ => exact .conn (by simp) hstep
      | readEvent =>
          simp only [step] at hstep
          split at hstep
          · exact .conn (by simp) hstep
          · cases hstep
      | deliver n => exact .conn (by simp) hstep
      | disconnect rc => exact .conn (by simp) hstep
  | process =>
      simp only [step] at hstep
      split at hstep
      · next event hoffering hevent =>
          obtain rfl := Option.some.inj hstep
          exact .process hoffering hevent
      · cases hstep
  | offerResume =>
      simp only [step] at hstep
      split at hstep
      · next sid hsid =>
          obtain ⟨stream, hstream, rfl⟩ := Option.map_eq_some_iff.mp hstep
          exact .offerResume hsid hstream
      · cases hstep
  | register sid =>
      simp only [step] at hstep
      split at hstep
      · cases hstep
      · next hmade =>
          obtain rfl := Option.some.inj hstep
          exact .register (by simpa using hmade)
  | closeOutlet sid =>
      simp only [step] at hstep
      split at hstep
      · next hregistered =>
          obtain rfl := Option.some.inj hstep
          exact .closeOutlet hregistered
      · cases hstep
  | sinkRead sid =>
      simp only [step] at hstep
      split at hstep
      · next hguard =>
          obtain ⟨stream, hstream, rfl⟩ := Option.map_eq_some_iff.mp hstep
          exact .sinkRead hguard.1 hguard.2 hstream
      · cases hstep
  | sinkResume sid =>
      simp only [step] at hstep
      split at hstep
      · next hpc =>
          obtain ⟨stream, hstream, rfl⟩ := Option.map_eq_some_iff.mp hstep
          exact .sinkResume hpc hstream
      · cases hstep
  | sinkWrote sid success =>
      simp only [step] at hstep
      split at hstep
      · next chunk hpc =>
          obtain rfl := Option.some.inj hstep
          exact .sinkWrote hpc
      · cases hstep

/-- The writers' errors are those of a closed connection. -/
def OnlyClosedErrors (s : Route κ) : RouteAction κ → Prop
  | .conn a => Connection.OnlyClosedErrors s.conn a
  | _ => True

/-- The chunks of a stream that `ProcessReadEvent` has seen. -/
def arrived (s : Route κ) (sid : UInt32) : List Bytes :=
  (s.conn.reader.events.take s.processed).filterMap (chunkOf sid)

/-- What is known of the whole way at any time. -/
structure Carries (A : Aead) (pb : Nanopb) (key : Bytes) (iv₀ : UInt64) (receiver : CipherContext)
    (s : Route κ) : Prop where
  conn : Connection.Carries A pb key iv₀ receiver s.conn
  small : ∀ event ∈ s.conn.started, (event.body.encoded pb).length ≤ kMaxChunkSize
  distinct : Function.Injective s.sid
  issues : ∀ c, Issues (s.sid c) s.conn.started s.conn.writer.done (s.source c)
  processed : s.processed ≤ s.conn.reader.events.length
  fed : ∀ sid, Fed (s.outlet sid) (s.arrived sid)
  free : ∀ sid, s.offering ≠ some sid → (s.outlet sid).stream.offerPc () = .idle

omit [DecidableEq κ] [Fintype κ] in
lemma arrived_eq {events : List MuxEvent} (h : s.processed ≤ s.conn.reader.events.length)
    (hevents : s.conn.reader.events <+: events) (sid : UInt32) :
    (events.take s.processed).filterMap (chunkOf sid) = s.arrived sid := by
  obtain ⟨more, rfl⟩ := hevents
  rw [List.take_append_of_le_length h]
  rfl

/-- A step of the connection that starts no call. -/
lemma Carries.stepConn {a : ConnectionAction κ} (h : Carries A pb key iv₀ receiver s)
    (herr : Connection.OnlyClosedErrors s.conn a)
    (hstarted : ∀ conn, s.conn.step A pb a = some conn → conn.started = s.conn.started)
    (hstep : s.stepConn A pb a = some s') : Carries A pb key iv₀ receiver s' := by
  obtain ⟨conn, hconn, rfl⟩ := Option.map_eq_some_iff.mp hstep
  have hcarries := Connection.step_carries h.conn herr hconn
  have hsame := hstarted conn hconn
  have hreader : s.conn.reader.events <+: conn.reader.events := by
    cases a with
    | write a =>
        obtain ⟨writer, -, rfl⟩ := Option.map_eq_some_iff.mp hconn
        exact List.prefix_refl _
    | readEvent =>
        obtain ⟨reader, hreader, rfl⟩ := Option.map_eq_some_iff.mp hconn
        exact ReaderState.step_events hreader
    | deliver n =>
        obtain ⟨reader, hreader, rfl⟩ := Option.map_eq_some_iff.mp hconn
        exact ReaderState.step_events hreader
    | disconnect rc =>
        obtain ⟨reader, hreader, rfl⟩ := Option.map_eq_some_iff.mp hconn
        exact ReaderState.step_events hreader
  have hdone : conn.writer.done = s.conn.writer.done ∨
      ∃ x, conn.writer.done = s.conn.writer.done ++ [x] := by
    cases a with
    | write a =>
        obtain ⟨writer, hwriter, rfl⟩ := Option.map_eq_some_iff.mp hconn
        rcases WriterState.step_done h.conn.sending.base.keyed hwriter with hdone | ⟨x, hdone, -⟩
        · exact .inl hdone
        · exact .inr ⟨x, hdone⟩
    | readEvent =>
        obtain ⟨reader, -, rfl⟩ := Option.map_eq_some_iff.mp hconn
        exact .inl rfl
    | deliver n =>
        obtain ⟨reader, -, rfl⟩ := Option.map_eq_some_iff.mp hconn
        exact .inl rfl
    | disconnect rc =>
        obtain ⟨reader, -, rfl⟩ := Option.map_eq_some_iff.mp hconn
        exact .inl rfl
  refine ⟨hcarries, hsame ▸ h.small, h.distinct, fun c => ?_,
    h.processed.trans hreader.length_le, fun sid => ?_, h.free⟩
  · show Issues (s.sid c) conn.started conn.writer.done (s.source c)
    rw [hsame]
    rcases hdone with hdone | ⟨x, hdone⟩
    · rw [hdone]
      exact h.issues c
    · rw [hdone]
      have hnodup := hcarries.sending.ledger.nodup
      rw [hdone, List.map_append, List.nodup_append] at hnodup
      refine (h.issues c).sent (mem_numbered.mpr ?_) fun hx => ?_
      · rw [← hsame]
        exact hcarries.sending.tracked.done x (by rw [hdone]; simp)
      · exact hnodup.2.2 x.1 (List.mem_map_of_mem hx) x.1 (by simp) rfl
  · show Fed (s.outlet sid) ((conn.reader.events.take s.processed).filterMap (chunkOf sid))
    rw [arrived_eq h.processed hreader]
    exact h.fed sid

/-- The transfer from a socket makes a call. -/
lemma Carries.call {event : MuxEvent} {env : WriteEnv} {source : Source}
    (h : Carries A pb key iv₀ receiver s) (hpc : (s.source c).pc = .reading)
    (hsid : event.head.sid = s.sid c) (hsmall : (event.body.encoded pb).length ≤ kMaxChunkSize)
    (hpc' : source.pc = .writing s.conn.writer.calls ∨ source.pc = .closing s.conn.writer.calls)
    (hread : source.read = (s.source c).read ++ (chunkOf (s.sid c) event).toList)
    (hstep : s.stepConn A pb (.write (.write c event env)) = some s') :
    Carries A pb key iv₀ receiver (s'.setSource c source) := by
  obtain ⟨conn, hconn, rfl⟩ := Option.map_eq_some_iff.mp hstep
  have hcarries := Connection.step_carries h.conn (by trivial) hconn
  obtain ⟨writer, hwriter, rfl⟩ := Option.map_eq_some_iff.mp hconn
  have hlength := h.conn.sending.tracked.length
  have hdone : writer.done = s.conn.writer.done := by
    rcases WriterState.step_done h.conn.sending.base.keyed hwriter with hdone | ⟨x, -, hstarted⟩
    · exact hdone
    · cases hstarted
  refine ⟨hcarries, fun ev hev => ?_, h.distinct, fun d => ?_, h.processed, h.fed, h.free⟩
  · rcases List.mem_append.mp hev with hev | hev
    · exact h.small ev hev
    · exact List.mem_singleton.mp hev ▸ hsmall
  · show Issues (s.sid d) (s.conn.started ++ [event]) writer.done
      (Function.update s.source c source d)
    rw [hdone]
    by_cases hd : d = c
    · subst hd
      rw [Function.update_self]
      rw [← hlength] at hpc'
      exact (h.issues d).start hpc hsid hpc' hread
    · rw [Function.update_of_ne hd]
      refine (h.issues d).other fun heq => hd (h.distinct ?_)
      rw [← heq, hsid]

omit [DecidableEq κ] [Fintype κ] in
lemma chunkOf_streamChunk (pb : Nanopb) (isEntryNode : Bool) (sid : UInt32) (st : SendStream)
    {buf : Bytes} (hlen : buf.length ≤ kMaxChunkSize) :
    chunkOf sid (streamChunk isEntryNode sid st buf) = some buf ∧
      ((streamChunk isEntryNode sid st buf).body.encoded pb).length ≤ kMaxChunkSize := by
  have hlt : buf.length < 2 ^ 32 := hlen.trans_lt (by decide)
  have htake : buf.take (UInt32.ofNat buf.length).toNat = buf := by
    rw [UInt32.toNat_ofNat', Nat.mod_eq_of_lt hlt, List.take_length]
  constructor
  · simp only [chunkOf, streamChunk, MuxEvent.ofBody, EventBody.chunkBytes, if_true,
      Option.getD_some, htake]
  · simp only [streamChunk, MuxEvent.ofBody, EventBody.encoded, Option.getD_some, htake]
    exact hlen

omit [DecidableEq κ] in
/-- A stream changes, with the chunks that have come for it. -/
lemma Carries.setOutlet {o : Outlet} (h : Carries A pb key iv₀ receiver s)
    (hfed : Fed o (s.arrived sid))
    (hfree : s.offering ≠ some sid → o.stream.offerPc () = .idle) :
    Carries A pb key iv₀ receiver (s.setOutlet sid o) := by
  refine ⟨h.conn, h.small, h.distinct, h.issues, h.processed, fun d => ?_, fun d hd => ?_⟩
  · show Fed (Function.update s.outlet sid o d) (s.arrived d)
    by_cases hsid : d = sid
    · subst hsid
      rw [Function.update_self]
      exact hfed
    · rw [Function.update_of_ne hsid]
      exact h.fed d
  · show (Function.update s.outlet sid o d).stream.offerPc () = .idle
    by_cases hsid : d = sid
    · subst hsid
      rw [Function.update_self]
      exact hfree hd
    · rw [Function.update_of_ne hsid]
      exact h.free d hd

omit [DecidableEq κ] in
/-- An event has been processed: the stream it names has seen its chunk, if it has one. -/
lemma Carries.seen {event : MuxEvent} {o : Outlet} (offering : Option UInt32)
    (h : Carries A pb key iv₀ receiver s) (hoffering : s.offering = none)
    (hevent : s.conn.reader.events[s.processed]? = some event)
    (hfed : Fed o (s.arrived event.head.sid ++ (chunkOf event.head.sid event).toList))
    (hfree : offering ≠ some event.head.sid → o.stream.offerPc () = .idle) :
    Carries A pb key iv₀ receiver { s with
      outlet := Function.update s.outlet event.head.sid o
      offering := offering
      processed := s.processed + 1 } := by
  have hlt : s.processed < s.conn.reader.events.length :=
    (List.getElem?_eq_some_iff.mp hevent).1
  have harrived : ∀ d, (s.conn.reader.events.take (s.processed + 1)).filterMap (chunkOf d) =
      s.arrived d ++ (chunkOf d event).toList := by
    intro d
    rw [List.take_add_one, List.filterMap_append, hevent]
    cases hchunk : chunkOf d event with
    | none => simp [arrived, hchunk]
    | some chunk => simp [arrived, hchunk]
  refine ⟨h.conn, h.small, h.distinct, h.issues, hlt, fun d => ?_, fun d hd => ?_⟩
  · show Fed (Function.update s.outlet event.head.sid o d)
      ((s.conn.reader.events.take (s.processed + 1)).filterMap (chunkOf d))
    rw [harrived]
    by_cases hsid : d = event.head.sid
    · subst hsid
      rw [Function.update_self]
      exact hfed
    · have hnone : chunkOf d event = none := if_neg fun heq => hsid heq.symm
      rw [Function.update_of_ne hsid, hnone, Option.toList_none, List.append_nil]
      exact h.fed d
  · show (Function.update s.outlet event.head.sid o d).stream.offerPc () = .idle
    by_cases hsid : d = event.head.sid
    · subst hsid
      rw [Function.update_self]
      exact hfree hd
    · rw [Function.update_of_ne hsid]
      exact h.free d (by simp [hoffering])

omit [DecidableEq κ] in
lemma Carries.process {event : MuxEvent} (h : Carries A pb key iv₀ receiver s)
    (hoffering : s.offering = none) (hevent : s.conn.reader.events[s.processed]? = some event) :
    Carries A pb key iv₀ receiver
      { s.processEvent event with processed := s.processed + 1 } := by
  have hidle := h.free event.head.sid (by simp [hoffering])
  have hfed := h.fed event.head.sid
  have hsame : chunkOf event.head.sid event = none → Carries A pb key iv₀ receiver
      { s with processed := s.processed + 1 } := by
    intro hnone
    have hkeep := h.seen s.offering hoffering hevent
      (by rw [hnone, Option.toList_none, List.append_nil]; exact hfed) fun _ => hidle
    rwa [Function.update_eq_self] at hkeep
  rw [processEvent]
  cases hchunk : event.body.chunkBytes with
  | some chunk =>
      have hof : chunkOf event.head.sid event = some chunk := by rw [chunkOf, if_pos rfl, hchunk]
      dsimp only
      split
      · next hregistered =>
          refine h.seen _ hoffering hevent ?_ fun hne => ?_
          · rw [hof]
            exact hfed.offer hregistered hidle
          · by_contra hbusy
            exact hne (if_neg hbusy)
      · exact h.seen s.offering hoffering hevent (by rw [hof]; exact hfed.drop) fun _ => hidle
  | none =>
      have hnone : chunkOf event.head.sid event = none := by rw [chunkOf, if_pos rfl, hchunk]
      dsimp only
      split
      · split
        · next hregistered =>
            refine h.seen s.offering hoffering hevent ?_ fun _ => StreamState.stepClose_idle hidle
            rw [hnone, Option.toList_none, List.append_nil]
            exact hfed.close hregistered
        · exact hsame hnone
      · exact hsame hnone

omit [Fintype κ] in
/-- A step of the connection inside the route starts no call. -/
lemma started_eq {a : ConnectionAction κ} (ha : ∀ c event env, a ≠ .write (.write c event env))
    {conn : Connection κ} (h : s.conn.step A pb a = some conn) : conn.started = s.conn.started := by
  cases a with
  | write a =>
      obtain ⟨writer, -, rfl⟩ := Option.map_eq_some_iff.mp h
      cases a with
      | write c event env => exact absurd rfl (ha c event env)
      | _ => exact List.append_nil _
  | readEvent =>
      obtain ⟨reader, -, rfl⟩ := Option.map_eq_some_iff.mp h
      rfl
  | deliver n =>
      obtain ⟨reader, -, rfl⟩ := Option.map_eq_some_iff.mp h
      rfl
  | disconnect rc =>
      obtain ⟨reader, -, rfl⟩ := Option.map_eq_some_iff.mp h
      rfl

lemma Carries.writeChunk {buf : Bytes} {env : WriteEnv} (h : Carries A pb key iv₀ receiver s)
    (hpc : (s.source c).pc = .reading) (hlen : buf.length ≤ kMaxChunkSize)
    (hstep : s.writeChunk A pb c buf env = some s') : Carries A pb key iv₀ receiver s' := by
  obtain ⟨t, ht, rfl⟩ := Option.map_eq_some_iff.mp hstep
  obtain ⟨hchunk, hsmall⟩ := chunkOf_streamChunk pb s.isEntryNode (s.sid c)
    (s.source c).stream hlen
  refine h.call hpc rfl hsmall (.inl rfl) ?_ ht
  rw [hchunk, Option.toList_some]

lemma Carries.writeClose {env : WriteEnv} (h : Carries A pb key iv₀ receiver s)
    (hpc : (s.source c).pc = .reading) (hstep : s.writeClose A pb c env = some s') :
    Carries A pb key iv₀ receiver s' := by
  obtain ⟨t, ht, rfl⟩ := Option.map_eq_some_iff.mp hstep
  refine h.call hpc rfl (Nat.zero_le _) (.inr rfl) ?_ ht
  have hnone : chunkOf (s.sid c) (.ofBody .streamCloseRequest (s.sid c)) = none := if_pos rfl
  rw [hnone, Option.toList_none, List.append_nil]

lemma Carries.resumeSource (h : Carries A pb key iv₀ receiver s)
    (hstep : s.resumeSource c = some s') : Carries A pb key iv₀ receiver s' := by
  have hnumbered : ∀ x ∈ s.conn.writer.done, x ∈ numbered s.conn.started := fun x hx =>
    mem_numbered.mpr (h.conn.sending.tracked.done x hx)
  have hset : ∀ {pc : SourcePc} {call : ℕ},
      (s.source c).pc = .writing call ∨ (s.source c).pc = .closing call →
      pc = .reading ∧ call ∈ s.conn.writer.done.map Prod.fst ∨ pc = .ended →
      Carries A pb key iv₀ receiver (s.setSource c { s.source c with pc := pc }) := by
    intro pc call hpc hpc'
    refine ⟨h.conn, h.small, h.distinct, fun d => ?_, h.processed, h.fed, h.free⟩
    show Issues (s.sid d) s.conn.started s.conn.writer.done
      (Function.update s.source c { s.source c with pc := pc } d)
    by_cases hd : d = c
    · subst hd
      rw [Function.update_self]
      exact (h.issues d).resume hpc hnumbered hpc'
    · rw [Function.update_of_ne hd]
      exact h.issues d
  simp only [Route.resumeSource] at hstep
  split at hstep
  · next call hjob hpc =>
      obtain rfl := Option.some.inj hstep
      refine hset (.inl hpc) ?_
      split
      · next hreturned =>
          have hmem := List.contains_iff_mem.mp hreturned
          exact .inl ⟨rfl, h.conn.sending.ledger.truthful call hmem⟩
      · exact .inr rfl
  · next call hjob hpc =>
      obtain rfl := Option.some.inj hstep
      exact hset (.inr hpc) (.inr rfl)
  · cases hstep

omit [DecidableEq κ] in
lemma Carries.offerResume (h : Carries A pb key iv₀ receiver s) (hsid : s.offering = some sid)
    {stream : StreamState Unit Bytes}
    (hstep : (s.outlet sid).stream.step (.offerResume ()) = some stream) :
    Carries A pb key iv₀ receiver
      { s.setOutlet sid { s.outlet sid with stream := stream } with offering := none } := by
  obtain ⟨hfed, hidle⟩ := (h.fed sid).offerResume hstep
  have hset := h.setOutlet hfed fun hne => absurd hsid hne
  refine ⟨hset.conn, hset.small, hset.distinct, hset.issues, hset.processed, hset.fed,
    fun d _ => ?_⟩
  show (Function.update s.outlet sid { s.outlet sid with stream := stream } d).stream.offerPc () =
    .idle
  by_cases hd : d = sid
  · subst hd
    rw [Function.update_self]
    exact hidle
  · rw [Function.update_of_ne hd]
    refine h.free d fun heq => hd ?_
    rw [hsid] at heq
    exact (Option.some.inj heq).symm

lemma step_carries {a : RouteAction κ} (h : Carries A pb key iv₀ receiver s)
    (herr : OnlyClosedErrors s a) (hstep : step A pb s a = some s') :
    Carries A pb key iv₀ receiver s' := by
  cases stepTo_of_step hstep with
  | sourceRead hpc hlen hwrite => exact h.writeChunk hpc hlen hwrite
  | sourceEnd hpc hwrite => exact h.writeClose hpc hwrite
  | sourceResume hresume => exact h.resumeSource hresume
  | conn ha hconn => exact h.stepConn herr (fun _ => started_eq ha) hconn
  | process hoffering hevent => exact h.process hoffering hevent
  | offerResume hsid hstream => exact h.offerResume hsid hstream
  | @register sid hmade => exact h.setOutlet ((h.fed sid).register hmade) (h.free sid)
  | @closeOutlet sid hregistered =>
      exact h.setOutlet ((h.fed sid).close hregistered) fun hne =>
        StreamState.stepClose_idle (h.free sid hne)
  | @sinkRead sid stream hmade hpc hstream =>
      obtain ⟨hfed, hidle⟩ := (h.fed sid).sinkRead hpc hstream
      exact h.setOutlet hfed fun hne => hidle (h.free sid hne)
  | @sinkResume sid stream hpc hstream =>
      obtain ⟨hfed, hoffer⟩ := (h.fed sid).sinkResume hpc hstream
      refine h.setOutlet hfed fun hne => ?_
      show stream.offerPc () = .idle
      rw [hoffer]
      exact h.free sid hne
  | @sinkWrote sid success chunk hpc =>
      refine h.setOutlet ((h.fed sid).sinkWrote hpc success) fun hne => ?_
      cases success <;> exact h.free sid hne

lemma carries_init {sender : CipherContext} {isEntryNode masks : Bool} {sid : κ → UInt32}
    {isTls : κ → Bool} (hk : sender.Keyed key) (htag : receiver.cipherTagLen ≤ 16)
    (hsid : Function.Injective sid) :
    Carries A pb key sender.encryptIv receiver
      (init isEntryNode sid isTls sender receiver masks) where
  conn := Connection.run_carries hk htag (show Along (Connection.step A pb)
    Connection.OnlyClosedErrors _ ([] : List (ConnectionAction κ)) from trivial) rfl
  small := fun _ hevent => absurd hevent List.not_mem_nil
  distinct := hsid
  issues := fun _ => ⟨⟨[], rfl, Nat.zero_le _, fun _ => rfl, fun _ _ _ hx =>
    absurd hx List.not_mem_nil⟩, rfl⟩
  processed := Nat.zero_le _
  fed := fun _ => Outlet.fed_new
  free := fun _ _ => rfl

lemma run_carries {sender : CipherContext} {isEntryNode masks : Bool} {sid : κ → UInt32}
    {isTls : κ → Bool} {as : List (RouteAction κ)} (hk : sender.Keyed key)
    (htag : receiver.cipherTagLen ≤ 16) (hsid : Function.Injective sid)
    (herr : Along (step A pb) OnlyClosedErrors
      (init isEntryNode sid isTls sender receiver masks) as)
    (h : exec (step A pb) (init isEntryNode sid isTls sender receiver masks) as = some s) :
    Carries A pb key sender.encryptIv receiver s := by
  refine exec_invariant_along (I := Carries A pb key sender.encryptIv receiver) ?_ ?_ herr h
  · intro s a s' hcarries hC hstep
    exact step_carries hcarries hC hstep
  · exact carries_init hk htag hsid

omit [DecidableEq κ] in
/-- The chunks among the events are those of the first calls on the wire. -/
lemma Carries.events_chunks {calls : List (ℕ × MuxEvent)} (sid : UInt32)
    (h : Carries A pb key iv₀ receiver s) (hr : receiver.Keyed key) (hiv : iv₀ = receiver.decryptIv)
    (hwire : WriterState.OnWire A pb key iv₀ s.conn.writer s.conn.started calls) :
    s.conn.reader.events.filterMap (chunkOf sid) =
      (calls.take s.conn.reader.events.length).filterMap fun x => chunkOf sid x.2 :=
  chunks_eq_of_same (h.conn.events_same hr hiv h.small hwire).1

omit [DecidableEq κ] in
/-- What has come for a stream are the first of the chunks that were read for it. -/
lemma Carries.arrived_prefix (h : Carries A pb key iv₀ receiver s) (hr : receiver.Keyed key)
    (hiv : iv₀ = receiver.decryptIv) (c : κ) : s.arrived (s.sid c) <+: (s.source c).read := by
  obtain ⟨calls, hwire⟩ := h.conn.sending.onWire
  have hevents := h.events_chunks (s.sid c) hr hiv hwire
  calc s.arrived (s.sid c)
      <+: s.conn.reader.events.filterMap (chunkOf (s.sid c)) :=
        (List.take_prefix _ _).filterMap _
    _ <+: calls.filterMap fun x => chunkOf (s.sid c) x.2 := by
        rw [hevents]
        exact (List.take_prefix _ _).filterMap _
    _ <+: (s.source c).read := (h.issues c).prefix_of_read hwire

/-- **A socket gets what the other one sent.**  Any number of sockets send through one
authenticated connection, each over its own stream; the transport delivers the bytes in pieces of
any size, and no `AsyncWrite` fails while the connection is open.  Then, in every state reached,
what was written to the socket at the other end of a stream are chunks that were read from its own
socket, in order and none twice; and they are the first ones, unless a chunk came for the stream
while it was not there. -/
theorem socket_gets_what_was_sent (A : Aead) (pb : Nanopb) (key : Bytes)
    (sender receiver : CipherContext) (hs : sender.FromNew "chacha20_poly1305" key)
    (hr : receiver.FromNew "chacha20_poly1305" key) (hiv : sender.encryptIv = receiver.decryptIv)
    (isEntryNode masks : Bool) (sid : κ → UInt32) (hsid : Function.Injective sid)
    (isTls : κ → Bool) (as : List (RouteAction κ)) (s : Route κ)
    (herr : Along (step A pb) OnlyClosedErrors
      (init isEntryNode sid isTls sender receiver masks) as)
    (h : exec (step A pb) (init isEntryNode sid isTls sender receiver masks) as = some s)
    (c : κ) :
    (s.outlet (s.sid c)).written.Sublist (s.source c).read ∧
      ((s.outlet (s.sid c)).dropped = [] →
        (s.outlet (s.sid c)).written <+: (s.source c).read) := by
  have hcarries := run_carries hs.keyed hr.tagLen_le hsid herr h
  have harrived := hcarries.arrived_prefix hr.keyed hiv c
  have hfed := hcarries.fed (s.sid c)
  constructor
  · exact (hfed.written_prefix.sublist.trans hfed.sublist).trans harrived.sublist
  · intro hdropped
    exact (hfed.written_prefix.trans (hfed.whole hdropped)).trans harrived

/-- Two sockets send.  The frame of the first chunk arrives in two pieces and its chunk is written
at the other node; its socket has delivered another chunk, and the frame of the second socket waits
for the write mutex. -/
def twoSockets : List (RouteAction Bool) :=
  [.register 1, .sinkRead 1, .conn .readEvent, .sourceRead false [7] ⟨[], []⟩,
    .sourceRead true [8, 9] ⟨[], []⟩, .conn (.write (.transmit false 9)), .conn (.deliver 9),
    .conn (.write (.transmit false 32)), .conn (.write (.complete false)),
    .conn (.write (.unlocked false)), .sourceResume false, .sourceRead false [6] ⟨[], []⟩,
    .conn (.deliver 50), .process, .offerResume, .sinkResume 1, .sinkWrote 1 true]

def twoSocketsSid : Bool → UInt32 := fun c => if c then 3 else 1

omit [Fintype κ] in
/-- No step of the run is an `AsyncWrite` that fails. -/
lemma onlyClosedErrors_of_forall {as : List (RouteAction κ)}
    (has : ∀ a ∈ as, ∀ c, a ≠ .conn (.write (.writeError c))) (s : Route κ) :
    Along (step A pb) OnlyClosedErrors s as := by
  refine along_of_forall (fun a ha s => ?_) s
  have hne := has a ha
  cases a with
  | conn a =>
      cases a with
      | write a =>
          cases a with
          | writeError c => exact absurd rfl (hne c)
          | _ => trivial
      | _ => trivial
  | _ => trivial

theorem socket_gets_what_was_sent_two_sockets :
    ∃ ctx s, CipherContext.new "chacha20_poly1305" [1] = some ctx ∧
      exec (step chacha20Poly1305 protobuf)
        (init true twoSocketsSid (fun _ => false) ctx ctx false) twoSockets = some s ∧
      (s.source false).read = [[7], [6]] ∧ (s.outlet 1).written = [[7]] ∧
      (s.outlet 1).written <+: (s.source false).read := by
  have hrun : ((CipherContext.new "chacha20_poly1305" [1]).bind fun ctx =>
      (exec (step chacha20Poly1305 protobuf)
        (init true twoSocketsSid (fun _ => false) ctx ctx false) twoSockets).map fun s =>
          ((s.source false).read, (s.outlet 1).written, s.sid false, (s.outlet 1).dropped)) =
      some ([[7], [6]], [[7]], 1, []) := by decide +kernel
  obtain ⟨ctx, hctx, hmap⟩ := Option.bind_eq_some_iff.mp hrun
  obtain ⟨s, hs, hfields⟩ := Option.map_eq_some_iff.mp hmap
  simp only [Prod.mk.injEq] at hfields
  obtain ⟨hread, hwritten, hsid, hdropped⟩ := hfields
  obtain ⟨-, hprefix⟩ := socket_gets_what_was_sent chacha20Poly1305 protobuf [1] ctx ctx
    ⟨ctx, hctx, rfl⟩ ⟨ctx, hctx, rfl⟩ (CipherContext.encryptIv_of_new hctx) true false
    twoSocketsSid (by decide) (fun _ => false) twoSockets s
    (onlyClosedErrors_of_forall (by simp [twoSockets]) _) hs false
  rw [hsid] at hprefix
  exact ⟨ctx, s, hctx, hs, hread, hwritten, hprefix hdropped⟩

end Route

end Snova
