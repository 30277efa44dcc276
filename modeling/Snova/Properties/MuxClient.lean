import Snova.Model.MuxClient

/-!
# Slots and dead connections

A connection that has not been retired owns its slot: `NewConnection` only fills a slot that is
empty, and the slot is emptied when the connection is retired or ends (`Slotted`).  So the end of a
connection never touches the slot of another one.

The read loop does not empty the slot of a retired connection, and a retire request from the peer
marks a connection as retired that is still in its slot: when such a connection ends it stays there
for good.  Where retire requests only reach connections that have left their slot, every slot is
empty or holds a connection that is running (`InSlot`).
-/

namespace Snova

namespace MuxClient

/-- Slot `i` holds connection `c`. -/
def Holds (s : MuxClient) (i c : ℕ) : Prop := s.conns[i]? = some (some c)

/-- `NewConnection` is on its way for a slot that is empty. -/
def Vacant (s : MuxClient) : Prop :=
  match s.task with
  | .init idx => ∀ i c, idx ≤ i → ¬ s.Holds i c
  | .connecting idx => ∀ c, ¬ s.Holds idx c
  | _ => True

/-- Slots and the connections that own them. -/
structure Slotted (s : MuxClient) : Prop where
  idx_eq : ∀ i c, s.Holds i c → c < s.created ∧ (s.conn c).idx = i
  owns : ∀ c, s.Running c → (s.conn c).retired = false → s.Holds (s.conn c).idx c

/-- A connection in a slot is running and has not been retired. -/
def InSlot (s : MuxClient) : Prop :=
  ∀ i c, s.Holds i c → (s.conn c).finished = false ∧ (s.conn c).retired = false

variable {s s' : MuxClient}

/-! ## The operations on slots -/

lemma holds_set {i j c : ℕ} {x : Option ℕ} (h : (s.conns.set i x)[j]? = some (some c)) :
    (j = i ∧ x = some c) ∨ (j ≠ i ∧ s.Holds j c) := by
  by_cases hj : j = i
  · subst hj
    rw [List.getElem?_set_self'] at h
    left
    refine ⟨rfl, ?_⟩
    rcases hs : s.conns[j]? with _ | y
    · simp [hs] at h
    · simpa [hs] using h
  · rw [List.getElem?_set_ne (Ne.symm hj)] at h
    exact Or.inr ⟨hj, h⟩

lemma newConnection_eq_some {idx : ℕ} (h : s.newConnection idx = some s') :
    idx < s.conns.length ∧ s' = { s with
      conns := s.conns.set idx (some s.created)
      created := s.created + 1
      conn := Function.update s.conn s.created { idx := idx } } := by
  rw [newConnection] at h
  split at h
  · rename_i hidx
    exact ⟨hidx, (Option.some.inj h).symm⟩
  · cases h

/-- A new connection takes a slot that is empty. -/
lemma Slotted.newConnection (hs : s.Slotted) {idx : ℕ} (hvacant : ∀ c, ¬ s.Holds idx c)
    (h : s.newConnection idx = some s') : s'.Slotted := by
  obtain ⟨hidx, rfl⟩ := newConnection_eq_some h
  constructor
  · intro i c hc
    rcases holds_set hc with ⟨rfl, hx⟩ | ⟨-, hold⟩
    · obtain rfl := Option.some.inj hx
      exact ⟨Nat.lt_succ_self _, by simp⟩
    · obtain ⟨hlt, heq⟩ := hs.idx_eq i c hold
      exact ⟨Nat.lt_succ_of_lt hlt, by simpa [hlt.ne] using heq⟩
  · intro c hrun hret
    by_cases hc : c = s.created
    · subst hc
      simp only [Holds, Function.update_self]
      exact List.getElem?_set_self hidx
    · have hlt : c < s.created := lt_of_le_of_ne (Nat.le_of_lt_succ hrun.1) hc
      have hfin : (s.conn c).finished = false := by simpa [hc] using hrun.2
      have hold := hs.owns c ⟨hlt, hfin⟩ (by simpa [hc] using hret)
      have hne : (s.conn c).idx ≠ idx := fun he => hvacant c (he ▸ hold)
      simp only [Holds, Function.update_of_ne hc]
      rw [List.getElem?_set_ne hne.symm]
      exact hold

/-- The state of a connection changes, and it leaves its slot. -/
def leave (s : MuxClient) (idx c : ℕ) (x : ClientConn) : MuxClient :=
  { s with conns := s.conns.set idx none, conn := Function.update s.conn c x }

/-- The state of a connection changes, and the slots stay as they are. -/
def mark (s : MuxClient) (c : ℕ) (x : ClientConn) : MuxClient :=
  { s with conn := Function.update s.conn c x }

/-- The slots that are taken afterwards are those of other connections. -/
lemma Slotted.holds_leave (hs : s.Slotted) {idx c i d : ℕ} {x : ClientConn} (hc : s.Holds idx c)
    (hd : (s.leave idx c x).Holds i d) : s.Holds i d ∧ d ≠ c := by
  rcases holds_set hd with ⟨-, hx⟩ | ⟨hi, hold⟩
  · cases hx
  · refine ⟨hold, ?_⟩
    rintro rfl
    exact hi ((hs.idx_eq i d hold).2.symm.trans (hs.idx_eq idx d hc).2)

lemma Slotted.leave (hs : s.Slotted) {idx c : ℕ} (hc : s.Holds idx c) {x : ClientConn}
    (hx : x.retired = true ∨ x.finished = true) : (s.leave idx c x).Slotted := by
  constructor
  · intro i d hd
    obtain ⟨hold, hne⟩ := hs.holds_leave hc hd
    simpa [MuxClient.leave, hne] using hs.idx_eq i d hold
  · intro d hrun hret
    by_cases hd : d = c
    · subst hd
      have hfin := hrun.2
      simp only [MuxClient.leave, Function.update_self] at hret hfin
      simp [hret, hfin] at hx
    · have hold := hs.owns d (by simpa [MuxClient.leave, Running, hd] using hrun)
        (by simpa [MuxClient.leave, hd] using hret)
      have hne : (s.conn d).idx ≠ idx := by
        intro he
        have hslot := he ▸ hold
        rw [Holds, hc] at hslot
        exact hd (by simpa using hslot.symm)
      simp only [MuxClient.leave, Holds, Function.update_of_ne hd]
      rw [List.getElem?_set_ne hne.symm]
      exact hold

lemma Slotted.mark (hs : s.Slotted) {c : ℕ} {x : ClientConn} (hidx : x.idx = (s.conn c).idx)
    (hx : x.retired = true ∨ x.finished = true) : (s.mark c x).Slotted := by
  constructor
  · intro i d hd
    obtain ⟨hlt, heq⟩ := hs.idx_eq i d hd
    refine ⟨hlt, ?_⟩
    by_cases hdc : d = c
    · subst hdc
      simpa [MuxClient.mark, hidx] using heq
    · simpa [MuxClient.mark, hdc] using heq
  · intro d hrun hret
    by_cases hdc : d = c
    · subst hdc
      have hfin := hrun.2
      simp only [MuxClient.mark, Function.update_self] at hret hfin
      simp [hret, hfin] at hx
    · have hold := hs.owns d (by simpa [MuxClient.mark, Running, hdc] using hrun)
        (by simpa [MuxClient.mark, hdc] using hret)
      simpa [MuxClient.mark, Holds, hdc] using hold

lemma InSlot.newConnection (hin : s.InSlot) (hs : s.Slotted) {idx : ℕ}
    (h : s.newConnection idx = some s') : s'.InSlot := by
  obtain ⟨-, rfl⟩ := newConnection_eq_some h
  intro i c hc
  rcases holds_set hc with ⟨-, hx⟩ | ⟨-, hold⟩
  · obtain rfl := Option.some.inj hx
    simp
  · have hne : c ≠ s.created := (hs.idx_eq i c hold).1.ne
    simpa [hne] using hin i c hold

lemma InSlot.leave (hin : s.InSlot) (hs : s.Slotted) {idx c : ℕ} (hc : s.Holds idx c)
    (x : ClientConn) : (s.leave idx c x).InSlot := by
  intro i d hd
  obtain ⟨hold, hne⟩ := hs.holds_leave hc hd
  simpa [MuxClient.leave, hne] using hin i d hold

lemma InSlot.mark (hin : s.InSlot) {c : ℕ} (hc : ∀ i, ¬ s.Holds i c) (x : ClientConn) :
    (s.mark c x).InSlot := by
  intro i d hd
  have hne : d ≠ c := fun he => hc i (he ▸ hd)
  simpa [MuxClient.mark, hne] using hin i d hd

/-- Emptying slots keeps a vacant slot vacant. -/
lemma Vacant.mono (hv : s.Vacant) (htask : s'.task = s.task)
    (h : ∀ i c, s'.Holds i c → s.Holds i c) : s'.Vacant := by
  rw [Vacant] at hv ⊢
  rw [htask]
  split
  · rename_i idx heq
    simp only [heq] at hv
    exact fun i c hi hc => hv i c hi (h i c hc)
  · rename_i idx heq
    simp only [heq] at hv
    exact fun c hc => hv c (h _ c hc)
  · trivial

/-! ## The coroutines -/

/-- The loop of `CheckConnections` retires at most one connection, and stops at a slot that is
empty or at the one it has emptied. -/
lemma checkConnections_cases (expired : ℕ → Bool) (s : MuxClient) (rest : List ℕ) :
    (∃ idx c, s.Holds idx c ∧ s.checkConnections expired rest
      = { s.leave idx c { s.conn c with retired := true } with task := .retiring idx }) ∨
    (∃ idx, (∀ c, ¬ s.Holds idx c) ∧
      s.checkConnections expired rest = { s with task := .connecting idx }) ∨
    s.checkConnections expired rest = { s with task := .sleeping } := by
  induction rest with
  | nil => exact Or.inr (Or.inr rfl)
  | cons i rest ih =>
      rw [checkConnections]
      split
      · rename_i hslot
        refine Or.inr (Or.inl ⟨i, fun c hc => ?_, rfl⟩)
        rw [hc] at hslot
        cases hslot
      · rename_i c hslot
        split
        · exact Or.inl ⟨i, c, Option.join_eq_some_iff.mp hslot, rfl⟩
        · exact ih

/-- A retire request only reaches a connection that is not in its slot any more. -/
def RetireOutside (s : MuxClient) : ClientAction → Prop
  | .read c event => event.readCase = .retireConn → ¬ s.Holds (s.conn c).idx c
  | _ => True

/-- The invariant of the client.  Its last part depends on the retire requests. -/
structure Invariant (strict : Prop) (s : MuxClient) : Prop where
  slotted : s.Slotted
  vacant : s.Vacant
  inSlot : strict → s.InSlot

namespace Invariant

variable {strict : Prop}

lemma init (connNumPerServer : ℕ) : Invariant strict (MuxClient.init connNumPerServer) := by
  have hempty : ∀ i c, ¬ (MuxClient.init connNumPerServer).Holds i c := by
    intro i c hc
    have hmem := List.mem_of_getElem? hc
    simp [MuxClient.init] at hmem
  refine ⟨⟨fun i c hc => absurd hc (hempty i c), fun c hrun => absurd hrun.1 (Nat.not_lt_zero c)⟩,
    fun i c _ => hempty i c, fun _ i c hc => absurd hc (hempty i c)⟩

/-- The coroutine that fills the slots is suspended somewhere else. -/
lemma suspend (hs : s.Slotted) (hin : strict → s.InSlot) (task : ClientTask)
    (hv : Vacant { s with task := task }) : Invariant strict { s with task := task } :=
  ⟨⟨hs.idx_eq, hs.owns⟩, hv, hin⟩

lemma checkConnections (hs : s.Slotted) (hin : strict → s.InSlot) (expired : ℕ → Bool)
    (rest : List ℕ) : Invariant strict (s.checkConnections expired rest) := by
  rcases checkConnections_cases expired s rest with ⟨idx, c, hc, heq⟩ | ⟨idx, hidx, heq⟩ | heq
  · rw [heq]
    exact suspend (hs.leave hc (Or.inl rfl)) (fun hstrict => (hin hstrict).leave hs hc _) _ trivial
  · rw [heq]
    exact suspend hs hin _ hidx
  · rw [heq]
    exact suspend hs hin _ trivial

/-- `Init` goes on. -/
lemma initBehind (hs : s.Slotted) (hin : strict → s.InSlot) {idx : ℕ}
    (hv : ∀ i c, idx + 1 ≤ i → ¬ s.Holds i c) : Invariant strict (s.initBehind idx) := by
  apply suspend hs hin
  by_cases hlt : idx + 1 < s.conns.length
  · simp only [if_pos hlt]
    exact hv
  · simp only [if_neg hlt]
    trivial

lemma connected (h : Invariant strict s) (ok : Bool) (expired : ℕ → Bool)
    (hstep : s.step (.connected ok expired) = some s') : Invariant strict s' := by
  have hv := h.vacant
  rw [step] at hstep
  rw [Vacant] at hv
  split at hstep
  · rename_i idx htask
    simp only [htask] at hv
    cases ok with
    | true =>
        rw [if_pos rfl, Option.map_eq_some_iff] at hstep
        obtain ⟨s₁, hnew, rfl⟩ := hstep
        refine initBehind (h.slotted.newConnection (fun c => hv idx c le_rfl) hnew)
          (fun hstrict => (h.inSlot hstrict).newConnection h.slotted hnew) fun i c hi hc => ?_
        obtain ⟨-, rfl⟩ := newConnection_eq_some hnew
        rcases holds_set hc with ⟨rfl, -⟩ | ⟨-, hold⟩
        · omega
        · exact hv i c (Nat.le_of_succ_le hi) hold
    | false =>
        rw [if_neg Bool.false_ne_true] at hstep
        split at hstep
        · obtain rfl := Option.some.inj hstep
          exact suspend h.slotted h.inSlot _ trivial
        · obtain rfl := Option.some.inj hstep
          exact initBehind h.slotted h.inSlot fun i c hi => hv i c (Nat.le_of_succ_le hi)
  · rename_i idx htask
    simp only [htask] at hv
    cases ok with
    | true =>
        rw [if_pos rfl, Option.map_eq_some_iff] at hstep
        obtain ⟨s₁, hnew, rfl⟩ := hstep
        exact checkConnections (h.slotted.newConnection hv hnew)
          (fun hstrict => (h.inSlot hstrict).newConnection h.slotted hnew) expired _
    | false =>
        rw [if_neg Bool.false_ne_true] at hstep
        obtain rfl := Option.some.inj hstep
        exact checkConnections h.slotted h.inSlot expired _
  · cases hstep

/-- A connection that is in a slot is in its own. -/
lemma not_holds (h : Invariant strict s) {c : ℕ} (hc : ¬ s.Holds (s.conn c).idx c) (i : ℕ) :
    ¬ s.Holds i c := fun hi => hc ((h.slotted.idx_eq i c hi).2 ▸ hi)

lemma read (h : Invariant strict s) (c : ℕ) (event : MuxEvent)
    (hC : strict → s.RetireOutside (.read c event)) :
    Invariant strict (s.processReadEvent c event) := by
  rw [processReadEvent]
  split
  · rename_i hcase
    refine ⟨h.slotted.mark rfl (Or.inl rfl), h.vacant.mono rfl fun _ _ hi => hi, fun hstrict => ?_⟩
    exact (h.inSlot hstrict).mark (h.not_holds (hC hstrict hcase)) _
  · exact h

lemma finish (h : Invariant strict s) {c : ℕ} (hrun : s.Running c) :
    Invariant strict (s.finishConn c) := by
  cases hret : (s.conn c).retired with
  | true =>
      have heq : s.finishConn c = s.mark c { s.conn c with finished := true } := by
        rw [finishConn, hret, if_pos rfl, mark]
      rw [heq]
      refine ⟨h.slotted.mark rfl (Or.inr rfl), h.vacant.mono rfl fun _ _ hi => hi,
        fun hstrict => ?_⟩
      refine (h.inSlot hstrict).mark (fun i hi => ?_) _
      rw [(h.inSlot hstrict i c hi).2] at hret
      cases hret
  | false =>
      have hc := h.slotted.owns c hrun hret
      have heq : s.finishConn c = s.leave (s.conn c).idx c { s.conn c with finished := true } := by
        rw [finishConn, hret, if_neg Bool.false_ne_true, leave]
      rw [heq]
      refine ⟨h.slotted.leave hc (Or.inr rfl), h.vacant.mono rfl fun i d hd => ?_,
        fun hstrict => (h.inSlot hstrict).leave h.slotted hc _⟩
      exact (h.slotted.holds_leave hc hd).1

lemma step (h : Invariant strict s) {a : ClientAction} (hC : strict → s.RetireOutside a)
    (hstep : s.step a = some s') : Invariant strict s' := by
  cases a with
  | connected ok expired => exact h.connected ok expired hstep
  | timer expired =>
      rw [MuxClient.step] at hstep
      split at hstep
      · obtain rfl := Option.some.inj hstep
        exact checkConnections h.slotted h.inSlot expired _
      · cases hstep
  | retireWritten expired =>
      rw [MuxClient.step] at hstep
      split at hstep
      · obtain rfl := Option.some.inj hstep
        exact checkConnections h.slotted h.inSlot expired _
      · cases hstep
  | read c event =>
      rw [MuxClient.step] at hstep
      split at hstep
      · obtain rfl := Option.some.inj hstep
        exact h.read c event hC
      · cases hstep
  | finish c =>
      rw [MuxClient.step] at hstep
      split at hstep
      · rename_i hrun
        obtain rfl := Option.some.inj hstep
        exact h.finish hrun
      · cases hstep

end Invariant

/-! ## Runs -/

/-- No slot holds a connection whose coroutine has ended, whatever slot an event writer has chosen
it writes to a running connection, and the end of a connection leaves the other connections in
their slots. -/
def DeadAreGone (s : MuxClient) : Prop :=
  (∀ i c : ℕ, c < s.created → (s.conn c).finished = true → s.conns[i]? ≠ some (some c)) ∧
  (∀ idx c, eventWriter s.conns idx = some c → s.Running c) ∧
  ∀ c s', s.step (.finish c) = some s' → ∀ i d : ℕ, s.conns[i]? = some (some d) → d ≠ c →
    s'.conns[i]? = some (some d)

/-- The end of a connection empties no slot but its own, whatever the peers have sent. -/
lemma Slotted.finish_keeps (hs : s.Slotted) {c : ℕ} (h : s.step (.finish c) = some s') {i d : ℕ}
    (hd : s.Holds i d) (hne : d ≠ c) : s'.Holds i d := by
  rw [step] at h
  split at h
  · rename_i hrun
    obtain rfl := Option.some.inj h
    rw [Holds, finishConn]
    cases hret : (s.conn c).retired with
    | true => exact hd
    | false =>
        have hc := hs.owns c hrun hret
        have hi : (s.conn c).idx ≠ i := by
          rintro rfl
          rw [Holds, hc] at hd
          exact hne (by simpa using hd.symm)
        rw [if_neg Bool.false_ne_true, List.getElem?_set_ne hi]
        exact hd
  · cases h

lemma Invariant.deadAreGone (h : Invariant True s) : s.DeadAreGone := by
  refine ⟨fun i c _ hfin hc => ?_, fun idx c hc => ?_, fun c s' hstep i d hd hne => ?_⟩
  · rw [(h.inSlot trivial i c hc).1] at hfin
    cases hfin
  · have hholds : s.Holds idx c := Option.join_eq_some_iff.mp hc
    exact ⟨(h.slotted.idx_eq idx c hholds).1, (h.inSlot trivial idx c hholds).1⟩
  · exact h.slotted.finish_keeps hstep hd hne

/-- **Dead connections leave their slots.**  In every run in which retire requests only reach
connections that have left their slot already, no slot holds a connection that has ended. -/
theorem dead_are_gone {connNumPerServer : ℕ} {as : List ClientAction} {s : MuxClient}
    (hC : Along step RetireOutside (init connNumPerServer) as)
    (h : exec step (init connNumPerServer) as = some s) : s.DeadAreGone :=
  (exec_invariant_along (fun _ _ _ hs hc hstep => Invariant.step hs (fun _ => hc) hstep)
    (Invariant.init connNumPerServer) hC h).deadAreGone

/-- A retire request, as an event. -/
def retireConnRequest : MuxEvent := .ofBody .retireConnRequest

/-- The connection of the only slot expires, is retired and replaced, gets a retire request from
its peer and ends. -/
def replacedRun : List ClientAction :=
  [.connected true fun _ => false, .timer fun _ => true, .retireWritten fun _ => false,
    .timer fun _ => false, .connected true fun _ => false, .read 0 retireConnRequest, .finish 0]

theorem dead_are_gone_replaced :
    ∃ s, exec step (init 1) replacedRun = some s ∧ (s.conn 0).finished = true ∧
      s.conns = [some 1] ∧ s.DeadAreGone := by
  have hC : Along step RetireOutside (init 1) replacedRun := by
    refine .cons trivial rfl (.cons trivial rfl (.cons trivial rfl (.cons trivial rfl
      (.cons trivial rfl (.cons ?_ rfl (.cons trivial rfl trivial))))))
    intro _ hholds
    cases hholds
  exact ⟨_, rfl, rfl, rfl, dead_are_gone hC rfl⟩

/-- A connection is marked as retired by its peer while it is in its slot, and ends: it stays. -/
theorem retire_request_keeps_dead :
    ∃ s, exec step (init 1)
        [.connected true fun _ => false, .read 0 retireConnRequest, .finish 0] = some s ∧
      ¬ s.DeadAreGone := by
  refine ⟨_, rfl, fun h => ?_⟩
  exact h.1 0 0 Nat.zero_lt_one rfl rfl

end MuxClient

end Snova
