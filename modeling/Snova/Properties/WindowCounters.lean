import Snova.Framework.Tally
import Snova.Model.WindowCounters

/-!
# The latest bytes as a sliding window

A visit clears the counters of the next two seconds, and the visits are three seconds apart, so two
of three counters are cleared before they are used again.  The counter of the second behind each
visit is not: 32 seconds later its old bytes are still there.  Bytes that are counted for other
seconds, and not long after them, are in the window for 28 seconds at least and for less than 32
(`window_sums`).
-/

namespace Snova

variable {phase : Fin 3} {now : ℕ} {visited : Bool} {ring : WindowRing} {log : List Transfer}

/-! ## The statement -/

/-- The value is the number of the bytes of some transfers: none that is 32 seconds old, and all of
the last 28 seconds. -/
def IsSlidingSum (now : ℕ) (log : List Transfer) (value : ℕ) : Prop :=
  ∃ counted : Transfer → Bool, value = tally Transfer.bytes (fun e => counted e = true) log ∧
    ∀ e ∈ log, (e.finished + 32 ≤ now → counted e = false) ∧
      (now ≤ e.finished + 28 → counted e = true)

/-- Less than `2 ^ 32` bytes are counted for each second. -/
def FewBytes (log : List Transfer) : Prop :=
  ∀ second, tally Transfer.bytes (fun e => e.began = second) log < 2 ^ 32

lemma FewBytes.of_sum (h : tally Transfer.bytes (fun _ => True) log < 2 ^ 32) : FewBytes log :=
  fun _ => (tally_le fun _ _ _ => trivial).trans_lt h

/-- When the counter of a second is cleared: by the visit 30 or 31 seconds later. -/
def clearedAt (phase : Fin 3) (began : ℕ) : ℕ :=
  if began % 3 = phase.val then began + 30 else began + 31

/-- Bytes are not counted for a second behind a visit, and not so late that the counter is cleared
within 28 seconds. -/
structure Timely (phase : Fin 3) (began finished : ℕ) : Prop where
  began_ne : began % 3 ≠ (phase.val + 1) % 3
  soon : finished + 28 < clearedAt phase began

instance (phase : Fin 3) (began finished : ℕ) : Decidable (Timely phase began finished) :=
  decidable_of_iff (began % 3 ≠ (phase.val + 1) % 3 ∧ finished + 28 < clearedAt phase began)
    ⟨fun h => ⟨h.1, h.2⟩, fun h => ⟨h.1, h.2⟩⟩

/-- The condition on a step: the bytes it counts are counted in time. -/
def CountsTimely (phase : Fin 3) (s : WindowState) : WindowAction → Prop
  | .finishWrite i _ => ∀ began, s.writing[i]? = some began → Timely phase began s.now
  | .read _ => Timely phase s.now s.now
  | _ => True

instance (phase : Fin 3) (s : WindowState) (a : WindowAction) :
    Decidable (CountsTimely phase s a) :=
  match a with
  | .finishWrite _ _ => inferInstanceAs (Decidable (∀ _, _ = some _ → _))
  | .read _ => inferInstanceAs (Decidable (Timely _ _ _))
  | .tick | .visit | .startWrite | .failWrite _ => inferInstanceAs (Decidable True)

/-! ## One ring -/

/-- The counter of the bytes has not been cleared yet. -/
def Transfer.Live (phase : Fin 3) (now : ℕ) (visited : Bool) (e : Transfer) : Prop :=
  now < clearedAt phase e.began ∨ now = clearedAt phase e.began ∧ visited = false

instance : DecidablePred (Transfer.Live phase now visited) := fun _ =>
  inferInstanceAs (Decidable (_ ∨ _))

/-- The counters hold the bytes that have not been cleared yet. -/
structure CountsLive (phase : Fin 3) (now : ℕ) (visited : Bool) (ring : WindowRing)
    (log : List Transfer) : Prop where
  timely : ∀ e ∈ log, Timely phase e.began e.finished ∧ e.began ≤ e.finished ∧ e.finished ≤ now
  counter : ∀ i, ring i = UInt32.ofNat
    (tally Transfer.bytes (fun e => e.Live phase now visited ∧ windowSlot e.began = i) log)

lemma windowSlot_eq_iff {s t : ℕ} : windowSlot s = windowSlot t ↔ s % 32 = t % 32 := by
  rw [Fin.ext_iff]
  rfl

lemma clearedAt_bounds (phase : Fin 3) (began : ℕ) :
    clearedAt phase began = began + 30 ∧ began % 3 = phase.val ∨
      clearedAt phase began = began + 31 ∧ began % 3 ≠ phase.val := by
  rw [clearedAt]
  split
  · next h => exact .inl ⟨rfl, h⟩
  · next h => exact .inr ⟨rfl, h⟩

/-- What is counted is not a whole turn of the ring old. -/
lemma Transfer.Live.now_le {e : Transfer} (h : e.Live phase now visited) :
    now ≤ e.began + 31 := by
  have hcleared := clearedAt_bounds phase e.began
  rcases h with hlt | ⟨heq, -⟩
  · omega
  · omega

/-- 32 counters of 32 bits do not overflow 64 bits. -/
lemma toNat_total (ring : WindowRing) : ring.total.toNat = ∑ i, (ring i).toNat := by
  have hfold : ∀ (l : List (Fin 32)) (a : UInt64),
      (l.foldl (fun n i => n + (ring i).toUInt64) a).toNat
        = (a.toNat + (l.map fun i => (ring i).toNat).sum) % 2 ^ 64 := by
    intro l
    induction l with
    | nil =>
        exact fun a => (Nat.mod_eq_of_lt a.toNat_lt).symm
    | cons i l ih =>
        intro a
        rw [List.foldl_cons, ih, UInt64.toNat_add, UInt32.toNat_toUInt64, List.map_cons,
          List.sum_cons, Nat.mod_add_mod, Nat.add_assoc]
  have hlt : ∑ i, (ring i).toNat < 2 ^ 64 := by
    have hle : ∑ i, (ring i).toNat ≤ Finset.card Finset.univ • 2 ^ 32 :=
      Finset.sum_le_card_nsmul _ _ _ fun i _ => (ring i).toNat_lt.le
    refine hle.trans_lt ?_
    rw [Finset.card_univ, Fintype.card_fin]
    decide
  rw [WindowRing.total, hfold, UInt64.toNat_zero, Nat.zero_add, ← List.sum_ofFn, List.ofFn_eq_map,
    Nat.mod_eq_of_lt]
  rwa [← List.ofFn_eq_map, List.sum_ofFn]

namespace CountsLive

lemma init (phase : Fin 3) (now : ℕ) (visited : Bool) :
    CountsLive phase now visited (fun _ => 0) [] := by
  refine ⟨fun e he => ?_, fun i => rfl⟩
  cases he

/-- Bytes are added to the counter of their second. -/
lemma add (h : CountsLive phase now visited ring log) {began n : ℕ} (hbegan : began ≤ now)
    (htimely : Timely phase began now) :
    CountsLive phase now visited (ring.add began n) (⟨began, now, n⟩ :: log) := by
  have hlive : Transfer.Live phase now visited ⟨began, now, n⟩ := .inl (by
    have hsoon := htimely.soon
    show now < clearedAt phase began
    omega)
  constructor
  · intro e he
    obtain rfl | he := List.mem_cons.mp he
    · exact ⟨htimely, hbegan, Nat.le_refl now⟩
    · exact h.timely e he
  · intro i
    rw [WindowRing.add]
    by_cases hi : windowSlot began = i
    · subst hi
      rw [Function.update_self, tally_cons_of_pos ⟨hlive, rfl⟩, h.counter, UInt32.ofNat_add,
        UInt32.add_comm]
    · rw [Function.update_of_ne (Ne.symm hi), tally_cons_of_neg fun hmem => hi hmem.2, h.counter]

/-- A second ends only when the connection has been visited, if it is to be visited in it. -/
lemma tick (h : CountsLive phase now visited ring log)
    (hvisited : ¬ (now % 3 = phase.val ∧ visited = false)) :
    CountsLive phase (now + 1) false ring log := by
  refine ⟨fun e he => ?_, fun i => ?_⟩
  · obtain ⟨htimely, hbegan, hfinished⟩ := h.timely e he
    exact ⟨htimely, hbegan, hfinished.trans (Nat.le_succ now)⟩
  · rw [h.counter]
    apply congrArg UInt32.ofNat
    apply tally_congr
    intro e he
    apply and_congr_left
    intro _
    -- a counter is cleared in a second of the visits
    have hne := (h.timely e he).1.began_ne
    have hphase := phase.isLt
    have hcleared := clearedAt_bounds phase e.began
    rw [Transfer.Live, Transfer.Live]
    cases visited with
    | true =>
        simp only [reduceCtorEq, and_false, or_false, and_true]
        omega
    | false =>
        simp only [and_true] at hvisited ⊢
        omega

/-- A visit clears the counters that are due. -/
lemma visit (h : CountsLive phase now false ring log) (hphase : now % 3 = phase.val) :
    CountsLive phase now true (ring.reset now) log := by
  refine ⟨h.timely, fun i => ?_⟩
  rw [WindowRing.reset]
  by_cases hdue : i = windowSlot (now + 1) ∨ i = windowSlot (now + 1 + 1)
  · have hzero : tally Transfer.bytes
        (fun e => e.Live phase now true ∧ windowSlot e.began = i) log = 0 := by
      apply tally_eq_zero
      rintro e he ⟨hlive, hslot⟩
      obtain ⟨-, hbegan, hfinished⟩ := h.timely e he
      have hcleared := clearedAt_bounds phase e.began
      rw [Transfer.Live] at hlive
      simp only [reduceCtorEq, and_false, or_false] at hlive
      rcases hdue with rfl | rfl
      · rw [windowSlot_eq_iff] at hslot
        omega
      · rw [windowSlot_eq_iff] at hslot
        omega
    rw [hzero]
    rcases hdue with rfl | rfl
    · have hne : windowSlot (now + 1) ≠ windowSlot (now + 1 + 1) := by
        rw [Ne, windowSlot_eq_iff]
        omega
      rw [Function.update_of_ne hne, Function.update_self]
      rfl
    · rw [Function.update_self]
      rfl
  · rw [not_or] at hdue
    rw [Function.update_of_ne hdue.2, Function.update_of_ne hdue.1, h.counter]
    apply congrArg UInt32.ofNat
    apply tally_congr
    intro e he
    apply and_congr_left
    rintro rfl
    rw [windowSlot_eq_iff, windowSlot_eq_iff] at hdue
    have hcleared := clearedAt_bounds phase e.began
    have hne := (h.timely e he).1.began_ne
    rw [Transfer.Live, Transfer.Live]
    simp only [reduceCtorEq, and_false, or_false, and_true]
    omega

/-! ## The value -/

/-- With few bytes in each second no counter overflows: the bytes in it are those of one second. -/
lemma counter_lt (h : CountsLive phase now visited ring log) (hfew : FewBytes log) (i : Fin 32) :
    tally Transfer.bytes (fun e => e.Live phase now visited ∧ windowSlot e.began = i) log
      < 2 ^ 32 := by
  by_cases hsome : ∃ e ∈ log, e.Live phase now visited ∧ windowSlot e.began = i
  · obtain ⟨e, he, hlive, hslot⟩ := hsome
    refine (tally_le fun a ha => ?_).trans_lt (hfew e.began)
    rintro ⟨hlive', hslot'⟩
    rw [← hslot, windowSlot_eq_iff] at hslot'
    obtain ⟨-, hbegan, hfinished⟩ := h.timely e he
    obtain ⟨-, hbegan', hfinished'⟩ := h.timely a ha
    have hnow := hlive.now_le
    have hnow' := hlive'.now_le
    omega
  · rw [tally_eq_zero fun e he hlive => hsome ⟨e, he, hlive⟩]
    decide

lemma total_eq (h : CountsLive phase now visited ring log) (hfew : FewBytes log) :
    ring.total.toNat = tally Transfer.bytes (Transfer.Live phase now visited) log := by
  have hcounter : ∀ i, (ring i).toNat
      = tally Transfer.bytes (fun e => e.Live phase now visited ∧ windowSlot e.began = i) log :=
    fun i => by
      rw [h.counter, UInt32.toNat_ofNat', Nat.mod_eq_of_lt (h.counter_lt hfew i)]
  rw [toNat_total, Finset.sum_congr rfl fun i _ => hcounter i, sum_tally_class]

/-- **The value of a ring is a sliding sum.** -/
lemma isSlidingSum (h : CountsLive phase now visited ring log) (hfew : FewBytes log) :
    IsSlidingSum now log ring.total.toNat := by
  refine ⟨fun e => decide (e.Live phase now visited), ?_, fun e he => ?_⟩
  · rw [h.total_eq hfew]
    exact tally_congr fun e _ => decide_eq_true_iff.symm
  · obtain ⟨htimely, hbegan, -⟩ := h.timely e he
    have hsoon := htimely.soon
    have hcleared := clearedAt_bounds phase e.began
    rw [decide_eq_false_iff_not, decide_eq_true_iff, Transfer.Live]
    constructor
    · omega
    · omega

end CountsLive

/-! ## Runs -/

/-- The invariant: both rings count what is live, and the writes that wait began before. -/
structure WindowState.Counts (phase : Fin 3) (s : WindowState) : Prop where
  recv : CountsLive phase s.now s.visited s.recvRing s.received
  send : CountsLive phase s.now s.visited s.sendRing s.sent
  writing : ∀ began ∈ s.writing, began ≤ s.now

lemma counts_step {s s' : WindowState} {a : WindowAction} (h : s.Counts phase)
    (htimely : CountsTimely phase s a) (hstep : WindowState.step phase s a = some s') :
    s'.Counts phase := by
  cases a with
  | tick =>
      rw [WindowState.step] at hstep
      split at hstep
      · cases hstep
      · next hvisited =>
          obtain rfl := Option.some.inj hstep
          exact ⟨h.recv.tick hvisited, h.send.tick hvisited,
            fun began hbegan => (h.writing began hbegan).trans (Nat.le_succ _)⟩
  | visit =>
      rw [WindowState.step] at hstep
      split at hstep
      · next hvisit =>
          obtain rfl := Option.some.inj hstep
          have hrecv := h.recv
          have hsend := h.send
          rw [hvisit.2] at hrecv hsend
          exact ⟨hrecv.visit hvisit.1, hsend.visit hvisit.1, h.writing⟩
      · cases hstep
  | startWrite =>
      obtain rfl := Option.some.inj hstep
      refine ⟨h.recv, h.send, fun began hbegan => ?_⟩
      obtain rfl | hbegan := List.mem_cons.mp hbegan
      · exact Nat.le_refl _
      · exact h.writing began hbegan
  | finishWrite i n =>
      rw [WindowState.step, Option.map_eq_some_iff] at hstep
      obtain ⟨began, hbegan, rfl⟩ := hstep
      exact ⟨h.recv,
        h.send.add (h.writing began (List.mem_of_getElem? hbegan)) (htimely began hbegan),
        fun began' hbegan' => h.writing began' (List.mem_of_mem_eraseIdx hbegan')⟩
  | failWrite i =>
      rw [WindowState.step, Option.map_eq_some_iff] at hstep
      obtain ⟨began, -, rfl⟩ := hstep
      exact ⟨h.recv, h.send,
        fun began' hbegan' => h.writing began' (List.mem_of_mem_eraseIdx hbegan')⟩
  | read n =>
      obtain rfl := Option.some.inj hstep
      exact ⟨h.recv.add (Nat.le_refl _) htimely, h.send, h.writing⟩

/-- **The latest bytes are a sliding window.**  In every run of a connection that is visited every
three seconds, in which all bytes are counted in time: at every second the values of both rings are
sums over the last 28 seconds and at most the last 32. -/
theorem window_sums (phase : Fin 3) (start : ℕ) (visited : Bool) {as : List WindowAction}
    {s : WindowState} (hrun : exec (WindowState.step phase) (.init start visited) as = some s)
    (htimely : Along (WindowState.step phase) (CountsTimely phase) (.init start visited) as)
    (hsent : FewBytes s.sent) (hreceived : FewBytes s.received) :
    IsSlidingSum s.now s.sent s.sendRing.total.toNat ∧
      IsSlidingSum s.now s.received s.recvRing.total.toNat := by
  have hinit : (WindowState.init start visited).Counts phase :=
    ⟨.init phase start visited, .init phase start visited, fun began hbegan => by cases hbegan⟩
  have hcounts : s.Counts phase :=
    exec_invariant_along (fun _ _ _ h hC hstep => counts_step h hC hstep) hinit htimely hrun
  exact ⟨hcounts.send.isSlidingSum hsent, hcounts.recv.isSlidingSum hreceived⟩

/-- 36 seconds with visits: bytes are read and written at their beginning, and read in the last
second. -/
def windowRun : List WindowAction :=
  [.tick, .tick, .read 5, .startWrite, .tick, .visit, .finishWrite 0 100, .read 7] ++
    (List.replicate 11 [WindowAction.tick, .tick, .tick, .visit]).flatten ++ [.read 9]

theorem window_sums_visited :
    ∃ s, exec (WindowState.step 0) (.init 0 true) windowRun = some s ∧ s.now = 36 ∧
      s.sent.length = 1 ∧ s.received.length = 3 ∧
      IsSlidingSum s.now s.sent s.sendRing.total.toNat ∧
      IsSlidingSum s.now s.received s.recvRing.total.toNat := by
  have hvalues : (exec (WindowState.step 0) (.init 0 true) windowRun).map
      (fun s => (s.now, s.sent, s.received))
      = some (36, [⟨2, 3, 100⟩], [⟨36, 36, 9⟩, ⟨3, 3, 7⟩, ⟨2, 2, 5⟩]) := by
    decide +kernel
  obtain ⟨s, hs, heq⟩ := Option.map_eq_some_iff.mp hvalues
  rw [Prod.mk.injEq, Prod.mk.injEq] at heq
  obtain ⟨hnow, hsent, hreceived⟩ := heq
  have htimely : Along (WindowState.step 0) (CountsTimely 0) (.init 0 true) windowRun := by
    decide +kernel
  refine ⟨s, hs, hnow, by rw [hsent]; rfl, by rw [hreceived]; rfl,
    window_sums 0 0 true hs htimely ?_ ?_⟩
  · rw [hsent]
    exact .of_sum (by decide)
  · rw [hreceived]
    exact .of_sum (by decide)

/-- Visits from second 3 to second 30, and a write before them, one second behind a visit. -/
def oldBytesRun : List WindowAction :=
  [.tick, .startWrite, .finishWrite 0 100, .tick, .tick] ++
    (List.replicate 10 [WindowAction.visit, .tick, .tick, .tick]).flatten

/-- After 32 seconds the bytes are still counted. -/
theorem old_bytes_counted :
    ∃ s, exec (WindowState.step 0) (.init 0 true) oldBytesRun = some s ∧
      FewBytes s.sent ∧ FewBytes s.received ∧
      ¬ IsSlidingSum s.now s.sent s.sendRing.total.toNat := by
  have hvalues : (exec (WindowState.step 0) (.init 0 true) oldBytesRun).map
      (fun s => (s.now, s.sent, s.received, s.sendRing.total))
      = some (33, [⟨1, 1, 100⟩], [], 100) := by
    decide +kernel
  obtain ⟨s, hs, heq⟩ := Option.map_eq_some_iff.mp hvalues
  rw [Prod.mk.injEq, Prod.mk.injEq, Prod.mk.injEq] at heq
  obtain ⟨hnow, hsent, hreceived, htotal⟩ := heq
  refine ⟨s, hs, ?_, ?_, ?_⟩
  · rw [hsent]
    exact .of_sum (by decide)
  · rw [hreceived]
    exact .of_sum (by decide)
  · rw [hnow, hsent, htotal]
    rintro ⟨counted, hvalue, h⟩
    have hold : counted ⟨1, 1, 100⟩ = false := (h _ List.mem_cons_self).1 (by decide)
    rw [tally_cons_of_neg (by rw [hold]; exact Bool.false_ne_true)] at hvalue
    cases hvalue

end Snova
