import Mathlib.Data.List.Destutter
import Snova.Model.ReadLoop
import Snova.Properties.StreamTable

/-!
# What becomes of a chunk

Every chunk that the read loop reads is offered to a stream, or answered by the request to close
its stream, or dropped because the request before was for the same stream.  The requests are the
ids of the chunks without a stream, repetitions taken out (`List.destutter`): the loop remembers one
id only, so that two such streams whose chunks alternate are asked to close again and again, and a
stream 0 is never asked first.
-/

namespace Snova

/-! ## Repetitions -/

section Destutter

variable {α : Type*} [DecidableEq α]

/-- One more element is kept unless it is the one kept last. -/
lemma destutter'_concat (a x : α) (l : List α) :
    (l ++ [x]).destutter' (· ≠ ·) a =
      l.destutter' (· ≠ ·) a ++ if (l.destutter' (· ≠ ·) a).getLast? = some x then [] else [x] := by
  induction l generalizing a with
  | nil =>
      by_cases hax : a = x
      · simp [List.destutter', hax]
      · simp [List.destutter', hax]
  | cons b l ih =>
      by_cases hab : a = b
      · rw [List.cons_append, List.destutter'_cons_neg _ (not_not.mpr hab),
          List.destutter'_cons_neg _ (not_not.mpr hab), ih]
      · rw [List.cons_append, List.destutter'_cons_pos _ hab, List.destutter'_cons_pos _ hab, ih,
          List.cons_append]
        have hne : l.destutter' (· ≠ ·) b ≠ [] := List.destutter'_ne_nil l (· ≠ ·)
        obtain ⟨y, ys, hys⟩ := List.exists_cons_of_ne_nil hne
        rw [hys, List.getLast?_cons_cons]

end Destutter

namespace ReadLoop

variable {clientId : UInt64} {s s' : ReadLoop}

/-- The ids of the chunks that came when their stream was not in the table. -/
def unmatched (s : ReadLoop) : List UInt32 :=
  s.chunks.filterMap fun x => if x.2 = none then some x.1.head.sid else none

/-- What is offered of a chunk. -/
def offer (x : MuxEvent × Option ℕ) : Option (ℕ × ChunkBuffer) :=
  x.2.bind fun c => x.1.chunkBuffer.map fun chunk => (c, chunk)

/-- `New` is called for an id without a relay that has its clean-up before it. -/
def IdFree (s : ReadLoop) : ReadLoopAction → Prop
  | .table a => s.table.IdFree a
  | _ => True

/-- The invariant: what the loop has done with the chunks. -/
structure Inv (s : ReadLoop) : Prop where
  offered : s.offered = s.chunks.filterMap offer
  -- the id of the last request, or 0, is the one that is remembered
  kept : ∃ sids, s.unmatched.destutter' (· ≠ ·) 0 = 0 :: sids ∧
    s.closeRequests = sids.map closeRequest
  last : (s.unmatched.destutter' (· ≠ ·) 0).getLast? = some s.lastUnmatchStreamId

lemma inv_init : Inv init :=
  ⟨rfl, ⟨[], rfl, rfl⟩, rfl⟩

lemma Inv.setTable (h : Inv s) (table : StreamTable) (pc : LoopPc) :
    Inv { s with table := table, pc := pc } :=
  ⟨h.offered, h.kept, h.last⟩

lemma streamChunk_table (clientId : UInt64) (s : ReadLoop) (event : MuxEvent) :
    (s.streamChunk clientId event).table = s.table ∧
      (s.streamChunk clientId event).chunks =
        s.chunks ++ [(event, s.table.get ⟨clientId, event.head.sid⟩)] := by
  simp only [ReadLoop.streamChunk]
  split
  · split
    · exact ⟨rfl, rfl⟩
    · exact ⟨rfl, rfl⟩
  · split
    · exact ⟨rfl, rfl⟩
    · exact ⟨rfl, rfl⟩

/-- One more chunk, without a stream or with one. -/
lemma unmatched_streamChunk (clientId : UInt64) (s : ReadLoop) (event : MuxEvent) :
    (s.streamChunk clientId event).unmatched = s.unmatched ++
      if s.table.get ⟨clientId, event.head.sid⟩ = none then [event.head.sid] else [] := by
  rw [unmatched, unmatched, (streamChunk_table clientId s event).2, List.filterMap_append]
  cases hget : s.table.get ⟨clientId, event.head.sid⟩ with
  | none => rfl
  | some c => rfl

lemma filterMap_offer_streamChunk (clientId : UInt64) (s : ReadLoop) (event : MuxEvent) :
    (s.streamChunk clientId event).chunks.filterMap offer = s.chunks.filterMap offer ++
      (offer (event, s.table.get ⟨clientId, event.head.sid⟩)).toList := by
  rw [(streamChunk_table clientId s event).2, List.filterMap_append]
  cases hoffer : offer (event, s.table.get ⟨clientId, event.head.sid⟩) with
  | none => simp [hoffer]
  | some x => simp [hoffer]

lemma Inv.streamChunk (h : Inv s) (event : MuxEvent) : Inv (s.streamChunk clientId event) := by
  obtain ⟨hoffered, ⟨sids, hsids, hrequests⟩, hlast⟩ := h
  have hunmatched := unmatched_streamChunk clientId s event
  have hmore := filterMap_offer_streamChunk clientId s event
  cases hget : s.table.get ⟨clientId, event.head.sid⟩ with
  | none =>
      rw [hget, if_pos rfl] at hunmatched
      rw [hget, ← hoffered] at hmore
      -- the id is kept unless it is that of the request before
      have hconcat := destutter'_concat 0 event.head.sid s.unmatched
      rw [hlast, ← hunmatched] at hconcat
      by_cases heq : s.lastUnmatchStreamId = event.head.sid
      · have hsame : (s.streamChunk clientId event).offered = s.offered ∧
            (s.streamChunk clientId event).closeRequests = s.closeRequests ∧
              (s.streamChunk clientId event).lastUnmatchStreamId = s.lastUnmatchStreamId := by
          simp [ReadLoop.streamChunk, hget, heq]
        obtain ⟨hoffered', hrequests', hlast'⟩ := hsame
        rw [if_pos (by rw [heq]), List.append_nil] at hconcat
        refine ⟨?_, ⟨sids, ?_, ?_⟩, ?_⟩
        · rw [hoffered', hmore]
          exact (List.append_nil _).symm
        · rw [hconcat, hsids]
        · rw [hrequests', hrequests]
        · rw [hconcat, hlast, hlast']
      · have hnew : (s.streamChunk clientId event).offered = s.offered ∧
            (s.streamChunk clientId event).closeRequests =
              s.closeRequests ++ [closeRequest event.head.sid] ∧
              (s.streamChunk clientId event).lastUnmatchStreamId = event.head.sid := by
          simp [ReadLoop.streamChunk, hget, heq]
        obtain ⟨hoffered', hrequests', hlast'⟩ := hnew
        rw [if_neg (by simpa using heq)] at hconcat
        refine ⟨?_, ⟨sids ++ [event.head.sid], ?_, ?_⟩, ?_⟩
        · rw [hoffered', hmore]
          exact (List.append_nil _).symm
        · rw [hconcat, hsids, List.cons_append]
        · rw [hrequests', hrequests, List.map_append, List.map_singleton]
        · rw [hconcat, List.getLast?_concat, hlast']
  | some c =>
      rw [hget, if_neg (Option.some_ne_none c), List.append_nil] at hunmatched
      have hkept : (s.streamChunk clientId event).closeRequests = s.closeRequests ∧
          (s.streamChunk clientId event).lastUnmatchStreamId = s.lastUnmatchStreamId ∧
          (s.streamChunk clientId event).offered =
            s.offered ++ (offer (event, some c)).toList := by
        simp only [ReadLoop.streamChunk, hget, offer, Option.bind_some]
        split
        · next hchunk => simp [hchunk]
        · next chunk hchunk => simp [hchunk]
      obtain ⟨hrequests', hlast', hoffered'⟩ := hkept
      refine ⟨?_, ⟨sids, ?_, ?_⟩, ?_⟩
      · rw [hoffered', hoffered, hmore, hget]
      · rw [hunmatched, hsids]
      · rw [hrequests', hrequests]
      · rw [hunmatched, hlast, hlast']

lemma step_inv {a : ReadLoopAction} (h : Inv s) (hstep : step clientId s a = some s') :
    Inv s' := by
  cases a with
  | table a =>
      obtain ⟨table, -, rfl⟩ := Option.map_eq_some_iff.mp hstep
      exact h.setTable table s.pc
  | event event =>
      simp only [step] at hstep
      split at hstep
      · split at hstep
        · obtain ⟨table, -, rfl⟩ := Option.map_eq_some_iff.mp hstep
          exact h.setTable table _
        · exact Option.some.inj hstep ▸ h.streamChunk event
        · exact Option.some.inj hstep ▸ h
      · cases hstep
  | resume =>
      simp only [step, Option.ite_none_right_eq_some, Option.some_inj] at hstep
      exact hstep.2 ▸ h.setTable s.table .reading

/-! ## Whose chunk it is -/

/-- The table has the streams under their own ids. -/
def Keyed (t : StreamTable) : Prop :=
  ∀ id c, t.get id = some c → c < t.created ∧ (t.stream c).id = id

/-- What a step does to the table: streams keep their ids. -/
structure Grows (t t' : StreamTable) : Prop where
  keyed : Keyed t → Keyed t'
  created : t.created ≤ t'.created
  id : ∀ c < t.created, (t'.stream c).id = (t.stream c).id

lemma grows_refl (t : StreamTable) : Grows t t := ⟨fun h => h, le_rfl, fun _ _ => rfl⟩

lemma grows_new (t : StreamTable) (id : ClientStreamID) : Grows t (t.new id) := by
  have hold : ∀ c < t.created, ((t.new id).stream c).id = (t.stream c).id := by
    intro c hc
    simp [StreamTable.new, Function.update_of_ne hc.ne]
  refine ⟨fun hkeyed id' c hget => ?_, Nat.le_succ _, hold⟩
  have hkeep : t.get id' = some c → c < t.created + 1 ∧ ((t.new id).stream c).id = id' := by
    intro hbefore
    obtain ⟨hlt, hid⟩ := hkeyed id' c hbefore
    exact ⟨Nat.lt_succ_of_lt hlt, (hold c hlt).trans hid⟩
  cases hstreams : t.streams id with
  | some d =>
      rw [StreamTable.get, StreamTable.new, hstreams] at hget
      exact hkeep hget
  | none =>
      rw [StreamTable.get, StreamTable.new, hstreams] at hget
      dsimp only at hget
      by_cases hid : id' = id
      · rw [hid, Function.update_self, Option.some_inj] at hget
        subst hget
        exact ⟨Nat.lt_succ_self _, by simp [StreamTable.new, hid]⟩
      · rw [Function.update_of_ne hid] at hget
        exact hkeep hget

/-- A close or a clean-up: an id leaves the table, and a stream is marked. -/
lemma grows_drop (t : StreamTable) (c : ℕ) {x : TableStream} (hx : x.id = (t.stream c).id) :
    Grows t (t.drop c x) := by
  have hold : ∀ d, ((t.drop c x).stream d).id = (t.stream d).id := by
    intro d
    show (Function.update t.stream c x d).id = (t.stream d).id
    by_cases hd : d = c
    · rw [hd, Function.update_self, hx]
    · rw [Function.update_of_ne hd]
  refine ⟨fun hkeyed id d hget => ?_, le_rfl, fun d _ => hold d⟩
  rw [StreamTable.get, StreamTable.drop, StreamTable.remove] at hget
  dsimp only at hget
  by_cases hid : id = (t.stream c).id
  · rw [hid, Function.update_self] at hget
    cases hget
  · rw [Function.update_of_ne hid] at hget
    rw [hold]
    exact hkeyed id d hget

lemma grows_close (t : StreamTable) (c : ℕ) : Grows t (t.close c) := by
  rw [StreamTable.close]
  split
  · exact grows_refl t
  · exact grows_drop t c rfl

lemma grows_step {t t' : StreamTable} {a : TableAction} (hstep : t.step a = some t') :
    Grows t t' := by
  cases a with
  | new id => exact Option.some.inj hstep ▸ grows_new t id
  | close c =>
      simp only [StreamTable.step, Option.ite_none_right_eq_some, Option.some_inj] at hstep
      exact hstep.2 ▸ grows_close t c
  | closeEvent id =>
      simp only [StreamTable.step] at hstep
      split at hstep
      · exact Option.some.inj hstep ▸ grows_close t _
      · exact Option.some.inj hstep ▸ grows_refl t
  | cleanup c =>
      simp only [StreamTable.step, Option.ite_none_right_eq_some, Option.some_inj] at hstep
      exact hstep.2 ▸ grows_drop t c rfl

/-- A chunk that has been matched is one of a stream with its id. -/
def Matched (clientId : UInt64) (t : StreamTable) (x : MuxEvent × Option ℕ) : Prop :=
  ∀ c, x.2 = some c → c < t.created ∧ (t.stream c).id = ⟨clientId, x.1.head.sid⟩

structure Sorted (clientId : UInt64) (s : ReadLoop) : Prop where
  keyed : Keyed s.table
  matched : ∀ x ∈ s.chunks, Matched clientId s.table x

lemma sorted_init (clientId : UInt64) : Sorted clientId init where
  keyed id c hget := by simp [init, StreamTable.init, StreamTable.get] at hget
  matched x hx := by simp [init] at hx

lemma Sorted.grows {table : StreamTable} (h : Sorted clientId s) (hgrows : Grows s.table table)
    (pc : LoopPc) : Sorted clientId { s with table := table, pc := pc } := by
  refine ⟨hgrows.keyed h.keyed, fun x hx c hc => ?_⟩
  obtain ⟨hlt, hid⟩ := h.matched x hx c hc
  exact ⟨hlt.trans_le hgrows.created, (hgrows.id c hlt).trans hid⟩

lemma Sorted.streamChunk (h : Sorted clientId s) (event : MuxEvent) :
    Sorted clientId (s.streamChunk clientId event) := by
  obtain ⟨htable, hchunks⟩ := streamChunk_table clientId s event
  refine ⟨?_, ?_⟩
  · rw [htable]
    exact h.keyed
  · rw [htable, hchunks]
    intro x hx
    rcases List.mem_append.mp hx with hold | hnew
    · exact h.matched x hold
    · obtain rfl := List.mem_singleton.mp hnew
      exact fun c hc => h.keyed _ c hc

lemma step_sorted {a : ReadLoopAction} (h : Sorted clientId s)
    (hstep : step clientId s a = some s') : Sorted clientId s' := by
  cases a with
  | table a =>
      obtain ⟨table, htable, rfl⟩ := Option.map_eq_some_iff.mp hstep
      exact h.grows (grows_step htable) s.pc
  | event event =>
      simp only [step] at hstep
      split at hstep
      · split at hstep
        · obtain ⟨table, htable, rfl⟩ := Option.map_eq_some_iff.mp hstep
          exact h.grows (grows_step htable) _
        · exact Option.some.inj hstep ▸ h.streamChunk event
        · exact Option.some.inj hstep ▸ h
      · cases hstep
  | resume =>
      simp only [step, Option.ite_none_right_eq_some, Option.some_inj] at hstep
      exact hstep.2 ▸ h.grows (grows_refl s.table) .reading

/-! ## Open streams -/

lemma step_table {a : ReadLoopAction} (h : s.table.Invariant) (hfree : IdFree s a)
    (hstep : step clientId s a = some s') : s'.table.Invariant := by
  cases a with
  | table a =>
      obtain ⟨table, htable, rfl⟩ := Option.map_eq_some_iff.mp hstep
      exact h.step hfree htable
  | event event =>
      simp only [step] at hstep
      split at hstep
      · split at hstep
        · obtain ⟨table, htable, rfl⟩ := Option.map_eq_some_iff.mp hstep
          exact h.step (a := .closeEvent ⟨clientId, event.head.sid⟩) trivial htable
        · rw [← Option.some.inj hstep, (streamChunk_table clientId s event).1]
          exact h
        · exact Option.some.inj hstep ▸ h
      · cases hstep
  | resume =>
      simp only [step, Option.ite_none_right_eq_some, Option.some_inj] at hstep
      exact hstep.2 ▸ h

/-- **What becomes of a chunk.**  One connection's read loop runs, and the other coroutines of the
node make, close and clean up streams between its events and while it waits.  In every state
reached:

* what has been offered to the streams are the chunks that were matched, in order, each one to a
  stream with its id;
* the streams the peer has been asked to close are the ids of the chunks without a stream, with
  repetitions taken out and a first 0 left out;
* where every `New` is for an id without a relay that has its clean-up before it, the next chunk is
  offered to the open stream of its id, if there is one, and nobody is asked to close that. -/
theorem chunk_offered_or_answered (clientId : UInt64) (as : List ReadLoopAction) (s : ReadLoop)
    (h : exec (step clientId) init as = some s) :
    (s.offered = s.chunks.filterMap offer ∧
      ∀ x ∈ s.chunks, ∀ c, x.2 = some c →
        c < s.table.created ∧ (s.table.stream c).id = ⟨clientId, x.1.head.sid⟩) ∧
      (∃ sids, s.unmatched.destutter' (· ≠ ·) 0 = 0 :: sids ∧
        s.closeRequests = sids.map closeRequest) ∧
      (Along (step clientId) IdFree init as → ∀ event c, s.table.IsOpen c →
        (s.table.stream c).id = ⟨clientId, event.head.sid⟩ →
        (s.streamChunk clientId event).chunks = s.chunks ++ [(event, some c)] ∧
          (s.streamChunk clientId event).closeRequests = s.closeRequests) := by
  have hinv := exec_invariant (fun _ _ _ hs hstep => step_inv hs hstep) inv_init h
  have hsorted := exec_invariant (fun _ _ _ hs hstep => step_sorted hs hstep)
    (sorted_init clientId) h
  refine ⟨⟨hinv.offered, hsorted.matched⟩, hinv.kept, fun hfree event c hopen hid => ?_⟩
  have htable : s.table.Invariant := exec_invariant_along (I := fun s => s.table.Invariant)
    (fun _ _ _ hs hC hstep => step_table hs hC hstep) StreamTable.Invariant.init hfree h
  have hget := htable.get_open c hopen
  rw [hid] at hget
  refine ⟨?_, ?_⟩
  · rw [(streamChunk_table clientId s event).2, hget]
  · simp only [ReadLoop.streamChunk, hget]
    split
    · rfl
    · rfl

def chunkEvent (sid : UInt32) : MuxEvent := .ofBody .emptyChunk sid

/-- Chunks of two streams that are not in the table take turns, and a stream is made in between. -/
def alternatingRun : List ReadLoopAction :=
  [.event (chunkEvent 1), .resume, .event (chunkEvent 1), .event (chunkEvent 3), .resume,
    .table (.new ⟨7, 5⟩), .event (chunkEvent 1), .resume, .event (chunkEvent 5)]

theorem chunk_offered_or_answered_alternating :
    ∃ s, exec (step 7) init alternatingRun = some s ∧
      s.closeRequests = [closeRequest 1, closeRequest 3, closeRequest 1] ∧
      s.unmatched = [1, 1, 3, 1] ∧
      (∃ sids, s.unmatched.destutter' (· ≠ ·) 0 = 0 :: sids ∧
        s.closeRequests = sids.map closeRequest) ∧
      (s.streamChunk 7 (chunkEvent 5)).chunks = s.chunks ++ [(chunkEvent 5, some 0)] := by
  have hfree : Along (step 7) IdFree init alternatingRun := by
    refine .cons trivial rfl (.cons trivial rfl (.cons trivial rfl (.cons trivial rfl
      (.cons trivial rfl (.cons ?_ rfl (.cons trivial rfl (.cons trivial rfl
        (.cons trivial rfl trivial))))))))
    exact fun c hc => absurd hc (Nat.not_lt_zero c)
  have hrun : (exec (step 7) init alternatingRun).map (fun s =>
      (s.closeRequests, s.unmatched, s.table.created, s.table.stream 0)) =
        some ([closeRequest 1, closeRequest 3, closeRequest 1], [1, 1, 3, 1], 1,
          { id := ⟨7, 5⟩ }) := by rfl
  obtain ⟨s, hs, hfields⟩ := Option.map_eq_some_iff.mp hrun
  simp only [Prod.mk.injEq] at hfields
  obtain ⟨hrequests, hunmatched, hcreated, hstream⟩ := hfields
  obtain ⟨-, hkept, hmatched⟩ := chunk_offered_or_answered 7 alternatingRun s hs
  have hopen : s.table.IsOpen 0 := by
    refine ⟨?_, ?_⟩
    · rw [hcreated]
      exact Nat.one_pos
    · rw [hstream]
  have hid : (s.table.stream 0).id = ⟨7, (chunkEvent 5).head.sid⟩ := by
    rw [hstream]
    rfl
  exact ⟨s, hs, hrequests, hunmatched, hkept, (hmatched hfree (chunkEvent 5) 0 hopen hid).1⟩

end ReadLoop

end Snova
