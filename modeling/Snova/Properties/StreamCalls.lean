import Snova.Model.StreamCalls

/-!
# Closing a stream that cannot be written to

`WriteEvent` and `Close(false)` call each other, but only the first `Close` of a stream gets as far
as writing a request, since it sets `closed_` before anything else can run.  So the steps and the
writer attempts a call can still make are bounded by what its stack needs and, as long as the
stream is open, by one more `WriteEvent` (`WithinBudget`).  Another coroutine that closes the stream
meanwhile only makes the bound smaller.
-/

namespace Snova

/-! ## The budget of a call -/

/-- The steps a function makes at most before it returns, when the stream is closed. -/
def CallPoint.cost : CallPoint → ℕ
  | .writeEvent left => 2 * left + 3
  | .writing left => 2 * left + 4
  | .close _ => 1
  | .returning _ => 0

/-- The writers a function calls at most before it returns, when the stream is closed. -/
def CallPoint.tries : CallPoint → ℕ
  | .writeEvent left => left
  | .writing left => left
  | .close _ => 0
  | .returning _ => 0

namespace StreamCall

/-- The coroutine waits for an event writer. -/
def Suspended (call : StreamCall) : Prop := ∃ left, call.point = .writing left

/-- What a call has done and what it can still do. -/
structure WithinBudget (closed : Bool) (call : StreamCall) : Prop where
  steps_le : call.steps + (call.point.cost + call.stack.length + 1)
    + (if closed then 0 else 10) ≤ 20
  attempts_le : call.attempts + call.point.tries + (if closed then 0 else 3) ≤ 6

lemma WithinBudget.mono {call : StreamCall} {closed closed' : Bool}
    (h : call.WithinBudget closed) (hclosed : closed = true → closed' = true) :
    call.WithinBudget closed' := by
  cases closed' with
  | true =>
      have hsteps := h.steps_le
      have hattempts := h.attempts_le
      exact ⟨by simp only [if_true]; omega, by simp only [if_true]; omega⟩
  | false =>
      cases closed with
      | true => exact absurd (hclosed rfl) Bool.false_ne_true
      | false => exact h

end StreamCall

/-- A call that fails has `no_link`, after at most six attempts. -/
structure ReturnedCall.Bounded (r : ReturnedCall) : Prop where
  attempts_le : r.attempts ≤ 6
  steps_le : r.steps ≤ 20
  error_eq : r.error = none ∨ r.error = some .noLink

namespace StreamCalls

variable {κ μ : Type}

/-! ## The invariant -/

/-- The first `Close` leaves its marks for good. -/
structure Flags (s : StreamCalls κ μ) : Prop where
  closed_iff : s.stream.closed = true ↔ s.firstByRemote.isSome = true
  closed_of_started : s.closeStarted = true → s.stream.closed = true
  notMem_of_closed : s.stream.closed = true → s.inTable = false
  closeRequests_eq : s.closeRequests = if s.firstByRemote = some false then 1 else 0

/-- The invariant of a run.  `before` says that the stream was closed at some earlier point. -/
structure Invariant (s : StreamCalls κ μ) (before : Prop) : Prop where
  flags : s.Flags
  stays_closed : before → s.stream.closed = true
  suspended : ∀ c call, s.calls c = some call → s.running ≠ some c → call.Suspended
  active : ∀ c, s.running = some c → ∃ call, s.calls c = some call ∧ ¬ call.Suspended
  budget : ∀ c call, s.calls c = some call → call.WithinBudget s.stream.closed
  returned : ∀ r ∈ s.returned, r.Bounded

variable {s s' : StreamCalls κ μ} {c : κ} {before : Prop}

lemma Invariant.init (inTable hasWriter : Bool) :
    (init inTable hasWriter : StreamCalls κ μ).Invariant False where
  flags := ⟨by simp [StreamCalls.init, MuxStream.new], by simp [StreamCalls.init],
    by simp [StreamCalls.init, MuxStream.new], by simp [StreamCalls.init]⟩
  stays_closed h := h.elim
  suspended c call h := by cases h
  active c h := by cases h
  budget c call h := by cases h
  returned r h := by cases h

/-- The budget of the call that runs, with its point and its stack known. -/
lemma Invariant.budget_at (h : s.Invariant before) {call : StreamCall}
    (hcall : s.calls c = some call)
    {point : CallPoint} (hpoint : call.point = point) :
    (call.steps + (point.cost + call.stack.length + 1) + (if s.stream.closed then 0 else 10) ≤ 20) ∧
      call.attempts + point.tries + (if s.stream.closed then 0 else 3) ≤ 6 := by
  subst hpoint
  exact ⟨(h.budget c call hcall).steps_le, (h.budget c call hcall).attempts_le⟩

lemma closed_startClose (s : StreamCalls κ μ) (byRemote : Bool) :
    (s.startClose byRemote).stream.closed = true := by
  rw [StreamCalls.startClose, MuxStream.closeByRemote]
  split
  · assumption
  · rfl

lemma Flags.startClose (hopen : s.stream.closed = false) (h : s.Flags) (byRemote : Bool) :
    (s.startClose byRemote).Flags := by
  have hnone : s.firstByRemote = none := by
    have hnot : ¬ s.firstByRemote.isSome = true := by
      rw [← h.closed_iff, hopen]
      exact Bool.false_ne_true
    simpa using hnot
  have hzero : s.closeRequests = 0 := by
    rw [h.closeRequests_eq, hnone]
    rfl
  have hclosed := closed_startClose s byRemote
  refine ⟨⟨fun _ => rfl, fun _ => hclosed⟩, fun _ => hclosed, fun _ => rfl, ?_⟩
  cases byRemote with
  | true => simpa [StreamCalls.startClose] using hzero
  | false => simpa [StreamCalls.startClose] using hzero

lemma closed_offer (st : MuxStream κ μ) (c : κ) (chunk : μ) :
    (st.offer c chunk).1.closed = st.closed := by
  rw [MuxStream.offer]
  split
  · rfl
  · split <;> rfl

lemma closed_read (st : MuxStream κ μ) (c : κ) : (st.read c).1.closed = st.closed := by
  rw [MuxStream.read]
  split
  · rfl
  · split <;> rfl

/-- What happens to the data channel or to the table leaves the calls alone. -/
lemma Invariant.frame (h : s.Invariant before) {stream : MuxStream κ μ} {inTable : Bool}
    (hclosed : stream.closed = s.stream.closed) (hin : s.inTable = false → inTable = false) :
    Invariant { s with stream := stream, inTable := inTable } before := by
  refine ⟨⟨?_, ?_, ?_, h.flags.closeRequests_eq⟩, ?_, h.suspended, h.active, ?_, h.returned⟩
  · rw [hclosed]
    exact h.flags.closed_iff
  · rw [hclosed]
    exact h.flags.closed_of_started
  · rw [hclosed]
    exact fun hc => hin (h.flags.notMem_of_closed hc)
  · rw [hclosed]
    exact h.stays_closed
  · rw [hclosed]
    exact h.budget

variable [DecidableEq κ]

/-- One coroutine runs on; the others stay where they are. -/
lemma Invariant.move (h : s.Invariant before) (hbefore : ∀ d, s.running = some d → d = c)
    (call : Option StreamCall) (hcalls : s'.calls = Function.update s.calls c call)
    (hafter : ∀ d, s'.running = some d → d = c ∧ ∃ x, call = some x ∧ ¬ x.Suspended)
    (hsuspended : ∀ x, call = some x → s'.running ≠ some c → x.Suspended)
    (hclosed : s.stream.closed = true → s'.stream.closed = true)
    (hbudget : ∀ x, call = some x → x.WithinBudget s'.stream.closed) (hflags : s'.Flags)
    (hreturned : ∀ r ∈ s'.returned, r.Bounded) : s'.Invariant before := by
  refine ⟨hflags, fun hb => hclosed (h.stays_closed hb), fun d x hd hrun => ?_,
    fun d hd => ?_, fun d x hd => ?_, hreturned⟩
  · by_cases hdc : d = c
    · subst hdc
      rw [hcalls, Function.update_self] at hd
      exact hsuspended x hd hrun
    · rw [hcalls, Function.update_of_ne hdc] at hd
      exact h.suspended d x hd fun hd' => hdc (hbefore d hd')
  · obtain ⟨rfl, x, hx, hactive⟩ := hafter d hd
    refine ⟨x, ?_, hactive⟩
    rw [hcalls, Function.update_self, hx]
  · by_cases hdc : d = c
    · subst hdc
      rw [hcalls, Function.update_self] at hd
      exact hbudget x hd
    · rw [hcalls, Function.update_of_ne hdc] at hd
      exact (h.budget d x hd).mono hclosed

/-- The coroutine goes on without a suspension; `s₁` is the state it leaves behind it. -/
lemma Invariant.goOn (h : s.Invariant before) (s₁ : StreamCalls κ μ)
    (hbefore : ∀ d, s.running = some d → d = c) (hcalls : s₁.calls = s.calls)
    (hrun : s₁.running = some c) (hreturned : s₁.returned = s.returned)
    (hclosed : s.stream.closed = true → s₁.stream.closed = true) (hflags : s₁.Flags)
    {call : StreamCall} {point : CallPoint} {stack : List Waiting}
    (hpoint : ∀ left, point ≠ .writing left)
    (hbudget : StreamCall.WithinBudget s₁.stream.closed
      { call with point := point, stack := stack, steps := call.steps + 1 }) :
    (s₁.goOn c call point stack).Invariant before := by
  refine h.move hbefore
    (some { call with point := point, stack := stack, steps := call.steps + 1 })
    ?_ ?_ ?_ hclosed ?_ ?_ ?_
  · rw [StreamCalls.goOn, hcalls]
  · intro d hd
    refine ⟨Option.some.inj (hd.symm.trans hrun), _, rfl, ?_⟩
    rintro ⟨left, hleft⟩
    exact hpoint left hleft
  · exact fun x _ hne => absurd hrun hne
  · intro x hx
    exact Option.some.inj hx ▸ hbudget
  · exact ⟨hflags.closed_iff, hflags.closed_of_started, hflags.notMem_of_closed,
      hflags.closeRequests_eq⟩
  · intro r hr
    exact h.returned r (hreturned ▸ hr)

/-! ## The steps -/

lemma Invariant.close (h : s.Invariant before) (hrun : s.running = some c) {call : StreamCall}
    (hcall : s.calls c = some call) {byRemote : Bool} (hpoint : call.point = .close byRemote) :
    (s.close c call byRemote).Invariant before := by
  have hbefore : ∀ d, s.running = some d → d = c :=
    fun d hd => Option.some.inj (hd.symm.trans hrun)
  obtain ⟨hsteps, hattempts⟩ := h.budget_at hcall hpoint
  simp only [CallPoint.cost, CallPoint.tries] at hsteps hattempts
  rw [StreamCalls.close]
  split
  · rename_i hclosed
    simp only [hclosed, if_true] at hsteps hattempts
    refine h.goOn { s with closeStarted := true } hbefore rfl hrun rfl id ?_
      (by simp) ?_
    · exact ⟨h.flags.closed_iff, fun _ => hclosed, h.flags.notMem_of_closed,
        h.flags.closeRequests_eq⟩
    · constructor
      · simp only [CallPoint.cost, hclosed, if_true]
        omega
      · simp only [CallPoint.tries, hclosed, if_true]
        omega
  · rename_i hopen
    rw [Bool.not_eq_true] at hopen
    simp only [hopen, Bool.false_eq_true, if_false] at hsteps hattempts
    split
    · refine h.goOn (s.startClose true) hbefore rfl hrun rfl (fun _ => closed_startClose s true)
        (h.flags.startClose hopen true) (by simp) ?_
      rw [closed_startClose]
      constructor
      · simp only [CallPoint.cost, if_true]
        omega
      · simp only [CallPoint.tries, if_true]
        omega
    · refine h.goOn (s.startClose false) hbefore rfl hrun rfl (fun _ => closed_startClose s false)
        (h.flags.startClose hopen false) (by simp) ?_
      rw [closed_startClose]
      constructor
      · simp only [CallPoint.cost, List.length_cons, if_true]
        omega
      · simp only [CallPoint.tries, if_true]
        omega

lemma Invariant.leave (h : s.Invariant before) (hrun : s.running = some c) {call : StreamCall}
    (hcall : s.calls c = some call) {success : Bool} (hpoint : call.point = .returning success) :
    (s.leave c call success).Invariant before := by
  have hbefore : ∀ d, s.running = some d → d = c :=
    fun d hd => Option.some.inj (hd.symm.trans hrun)
  obtain ⟨hsteps, hattempts⟩ := h.budget_at hcall hpoint
  simp only [CallPoint.cost, CallPoint.tries] at hsteps hattempts
  -- a function that waits returns to the next one, with one frame less
  have hpop : ∀ (w : Waiting) (stack : List Waiting) (result : Bool), call.stack = w :: stack →
      (s.goOn c call (.returning result) stack).Invariant before := by
    intro w stack result hstack
    refine h.goOn s hbefore rfl hrun rfl id h.flags (by simp) ⟨?_, ?_⟩
    · rw [hstack, List.length_cons] at hsteps
      simp only [CallPoint.cost]
      omega
    · simp only [CallPoint.tries]
      omega
  rw [StreamCalls.leave]
  split
  · rename_i stack hstack
    exact hpop _ stack false hstack
  · rename_i stack hstack
    exact hpop _ stack success hstack
  · refine h.move hbefore none rfl (fun d hd => by cases hd) (fun x hx => by cases hx) id
      (fun x hx => by cases hx) ⟨h.flags.closed_iff, h.flags.closed_of_started,
        h.flags.notMem_of_closed, h.flags.closeRequests_eq⟩ fun r hr => ?_
    rcases List.mem_append.mp hr with hold | hnew
    · exact h.returned r hold
    · obtain rfl := List.mem_singleton.mp hnew
      refine ⟨by dsimp only; omega, by dsimp only; omega, ?_⟩
      cases success with
      | true => exact Or.inl rfl
      | false => exact Or.inr rfl

lemma Invariant.callWriter (h : s.Invariant before) (hrun : s.running = some c) {call : StreamCall}
    (hcall : s.calls c = some call) {left : ℕ} (hpoint : call.point = .writeEvent (left + 1)) :
    (s.callWriter c call left).Invariant before := by
  obtain ⟨hsteps, hattempts⟩ := h.budget_at hcall hpoint
  simp only [CallPoint.cost, CallPoint.tries] at hsteps hattempts
  refine h.move (fun d hd => Option.some.inj (hd.symm.trans hrun)) _ rfl (fun d hd => by cases hd)
    ?_ id ?_ ⟨h.flags.closed_iff, h.flags.closed_of_started, h.flags.notMem_of_closed,
      h.flags.closeRequests_eq⟩ h.returned
  · rintro x hx -
    obtain rfl := Option.some.inj hx
    exact ⟨left, rfl⟩
  · intro x hx
    obtain rfl := Option.some.inj hx
    have hstream : (s.callWriter c call left).stream = s.stream := rfl
    rw [hstream]
    constructor
    · simp only [CallPoint.cost]
      omega
    · simp only [CallPoint.tries]
      omega

lemma Invariant.tick (h : s.Invariant before) (hrun : s.running = some c) {call : StreamCall}
    (hcall : s.calls c = some call) {available : Bool}
    (hstep : s.tick c call available = some s') : s'.Invariant before := by
  have hbefore : ∀ d, s.running = some d → d = c :=
    fun d hd => Option.some.inj (hd.symm.trans hrun)
  rw [StreamCalls.tick] at hstep
  split at hstep
  · rename_i hpoint
    obtain rfl := Option.some.inj hstep
    obtain ⟨hsteps, hattempts⟩ := h.budget_at hcall hpoint
    simp only [CallPoint.cost, CallPoint.tries] at hsteps hattempts
    refine h.goOn s hbefore rfl hrun rfl id h.flags (by simp) ⟨?_, ?_⟩
    · simp only [CallPoint.cost, List.length_cons]
      omega
    · simp only [CallPoint.tries]
      omega
  · rename_i left hpoint
    obtain rfl := Option.some.inj hstep
    obtain ⟨hsteps, hattempts⟩ := h.budget_at hcall hpoint
    simp only [CallPoint.cost, CallPoint.tries] at hsteps hattempts
    split
    · exact h.callWriter hrun hcall hpoint
    · refine h.goOn { s with hasWriter := available } hbefore rfl hrun rfl id
        ⟨h.flags.closed_iff, h.flags.closed_of_started, h.flags.notMem_of_closed,
          h.flags.closeRequests_eq⟩ (by simp) ⟨?_, ?_⟩
      · simp only [CallPoint.cost]
        omega
      · simp only [CallPoint.tries]
        omega
  · cases hstep
  · rename_i byRemote hpoint
    obtain rfl := Option.some.inj hstep
    exact h.close hrun hcall hpoint
  · rename_i success hpoint
    obtain rfl := Option.some.inj hstep
    exact h.leave hrun hcall hpoint

lemma Invariant.call (h : s.Invariant before) (hrun : s.running = none) (kind : CallKind) :
    Invariant { s with
      calls := Function.update s.calls c (some { kind := kind, point := begin kind })
      running := some c } before := by
  refine h.move (fun d hd => ?_) _ rfl (fun d hd => ?_) (fun x _ hne => absurd rfl hne) id ?_
    ⟨h.flags.closed_iff, h.flags.closed_of_started, h.flags.notMem_of_closed,
      h.flags.closeRequests_eq⟩ h.returned
  · rw [hrun] at hd
    cases hd
  · refine ⟨(Option.some.inj hd).symm, _, rfl, ?_⟩
    rintro ⟨left, hleft⟩
    cases kind <;> cases hleft
  · intro x hx
    obtain rfl := Option.some.inj hx
    have hten : (if s.stream.closed then 0 else 10) ≤ 10 := by split <;> omega
    have hthree : (if s.stream.closed then 0 else 3) ≤ 3 := by split <;> omega
    constructor
    · cases kind <;> simp only [begin, CallPoint.cost, List.length_nil] <;> omega
    · cases kind <;> simp only [begin, CallPoint.tries] <;> omega

lemma Invariant.resume (h : s.Invariant before) (hrun : s.running = none) {call : StreamCall}
    (hcall : s.calls c = some call) {left : ℕ} (hpoint : call.point = .writing left)
    {point : CallPoint} (hnext : point = .returning true ∨ point = .writeEvent left)
    (hasWriter : Bool) :
    Invariant { { s with hasWriter := hasWriter }.goOn c call point call.stack with
      running := some c } before := by
  obtain ⟨hsteps, hattempts⟩ := h.budget_at hcall hpoint
  simp only [CallPoint.cost, CallPoint.tries] at hsteps hattempts
  refine h.goOn { s with hasWriter := hasWriter, running := some c } (fun d hd => ?_) rfl rfl rfl id
    ⟨h.flags.closed_iff, h.flags.closed_of_started, h.flags.notMem_of_closed,
      h.flags.closeRequests_eq⟩ ?_ ?_
  · rw [hrun] at hd
    cases hd
  · rcases hnext with rfl | rfl <;> simp
  · rcases hnext with rfl | rfl
    · constructor
      · simp only [CallPoint.cost]
        omega
      · simp only [CallPoint.tries]
        omega
    · constructor
      · simp only [CallPoint.cost]
        omega
      · simp only [CallPoint.tries]
        omega

lemma Invariant.step (h : s.Invariant before) {a : CallAction κ μ} (hstep : s.step a = some s') :
    s'.Invariant before := by
  cases a with
  | call c kind =>
      rw [StreamCalls.step] at hstep
      split at hstep
      · rename_i hrun _
        obtain rfl := Option.some.inj hstep
        exact h.call hrun kind
      · cases hstep
  | tick available =>
      rw [StreamCalls.step, Option.bind_eq_bind, Option.bind_eq_some_iff] at hstep
      obtain ⟨c, hrun, hstep⟩ := hstep
      rw [Option.bind_eq_bind, Option.bind_eq_some_iff] at hstep
      obtain ⟨call, hcall, hstep⟩ := hstep
      exact h.tick hrun hcall hstep
  | resume c success available =>
      rw [StreamCalls.step] at hstep
      split at hstep
      · rename_i call hrun hcall
        split at hstep
        · rename_i left hpoint
          split at hstep
          · obtain rfl := Option.some.inj hstep
            exact h.resume hrun hcall hpoint (Or.inl rfl) s.hasWriter
          · obtain rfl := Option.some.inj hstep
            exact h.resume hrun hcall hpoint (Or.inr rfl) available
        · cases hstep
      · cases hstep
  | offer c chunk =>
      rw [StreamCalls.step] at hstep
      split at hstep
      · obtain rfl := Option.some.inj hstep
        exact h.frame (closed_offer s.stream c chunk) id
      · cases hstep
  | read c =>
      rw [StreamCalls.step] at hstep
      split at hstep
      · obtain rfl := Option.some.inj hstep
        exact h.frame (closed_read s.stream c) id
      · cases hstep
  | evict =>
      rw [StreamCalls.step] at hstep
      split at hstep
      · obtain rfl := Option.some.inj hstep
        exact h.frame rfl fun _ => rfl
      · cases hstep

/-! ## Runs -/

/-- A coroutine that is in a call can go on: at once if it runs, else when its writer returns. -/
lemma Invariant.tick_isSome (h : s.Invariant before) (hrun : s.running = some c)
    (available : Bool) :
    (s.step (.tick available)).isSome := by
  obtain ⟨call, hcall, hactive⟩ := h.active c hrun
  rw [StreamCalls.step, hrun, Option.bind_eq_bind, Option.bind_some, hcall, Option.bind_eq_bind,
    Option.bind_some, StreamCalls.tick]
  split
  · rfl
  · rfl
  · rename_i left hpoint
    exact absurd ⟨left, hpoint⟩ hactive
  · rfl
  · rfl

lemma Invariant.resume_isSome (h : s.Invariant before) (hrun : s.running = none) {call : StreamCall}
    (hcall : s.calls c = some call) (success available : Bool) :
    (s.step (.resume c success available)).isSome := by
  have hnot : s.running ≠ some c := by
    rw [hrun]
    exact fun hnone => by cases hnone
  obtain ⟨left, hpoint⟩ := h.suspended c call hcall hnot
  simp only [StreamCalls.step, hrun, hcall, hpoint]
  split
  · rfl
  · rfl

/-- **Calls of a stream end.**  Along any run of any number of coroutines, a call that has not
returned can go on, and it returns within 20 steps of its coroutine and 6 writer attempts, with
`no_link` if it fails; at most one close request is made, and none if the first close came from the
remote; and once a `Close` has been started, the stream is not in the table and `Offer` and `Read`
return `no_link` from then on. -/
theorem stream_calls_end {inTable hasWriter : Bool} {as bs : List (CallAction κ μ)}
    {s t : StreamCalls κ μ} (h : exec step (init inTable hasWriter) as = some s)
    (ht : exec step s bs = some t) :
    (∀ c call, s.calls c = some call → call.steps < 20 ∧ call.attempts ≤ 6) ∧
    (∀ c, s.running = some c → ∀ available, (s.step (.tick available)).isSome) ∧
    (s.running = none → ∀ c call, s.calls c = some call →
      ∀ success available, (s.step (.resume c success available)).isSome) ∧
    (∀ r ∈ s.returned, r.Bounded) ∧
    s.closeRequests ≤ 1 ∧
    (s.firstByRemote = some true → s.closeRequests = 0) ∧
    (s.closeStarted = true → t.inTable = false ∧ ∀ c chunk,
      t.stream.offerError c chunk = some .noLink ∧ t.stream.readError c = some .noLink) := by
  have hs : s.Invariant False :=
    exec_invariant (I := fun s => s.Invariant False) (fun _ _ _ hi hstep => hi.step hstep)
      (Invariant.init inTable hasWriter) h
  refine ⟨fun c call hcall => ?_, fun c hrun => hs.tick_isSome hrun,
    fun hrun c call hcall => hs.resume_isSome hrun hcall, hs.returned, ?_, ?_, fun hstarted => ?_⟩
  · have hsteps := (hs.budget c call hcall).steps_le
    have hattempts := (hs.budget c call hcall).attempts_le
    exact ⟨by omega, by omega⟩
  · rw [hs.flags.closeRequests_eq]
    split <;> omega
  · intro hfirst
    rw [hs.flags.closeRequests_eq, hfirst]
    rfl
  · have hclosed := hs.flags.closed_of_started hstarted
    have hlater : t.Invariant True :=
      exec_invariant (I := fun s => s.Invariant True) (fun _ _ _ hi hstep => hi.step hstep)
        ⟨hs.flags, fun _ => hclosed, hs.suspended, hs.active, hs.budget, hs.returned⟩ ht
    have htclosed := hlater.stays_closed trivial
    refine ⟨hlater.flags.notMem_of_closed htclosed, fun c chunk => ⟨?_, ?_⟩⟩
    · rw [MuxStream.offerError, if_pos htclosed]
    · rw [MuxStream.readError, if_pos htclosed]

/-- Three attempts of a `Write` fail and so do those of its close request, while the peer closes the
stream. -/
def failingWrite : List (CallAction Bool Unit) :=
  [.call true .write, .tick true, .resume true false true, .tick true, .resume true false true,
    .tick true, .resume true false true, .tick true, .tick true, .tick true,
    .call false (.close true), .tick true, .tick true,
    .resume true false true, .tick true, .resume true false true, .tick true,
    .resume true false true, .tick true, .tick true, .tick true, .tick true, .tick true, .tick true]

theorem stream_calls_end_failing :
    ∃ s : StreamCalls Bool Unit, exec step (init true true) failingWrite = some s ∧
      s.returned = [⟨.close true, 0, 2, none⟩, ⟨.write, 6, 20, some .noLink⟩] ∧
      s.closeRequests = 1 ∧ s.inTable = false ∧ s.stream.readError false = some .noLink := by
  obtain ⟨s, hs, hreturned, hone, hstarted⟩ :
      ∃ s : StreamCalls Bool Unit, exec step (init true true) failingWrite = some s ∧
        s.returned = [⟨.close true, 0, 2, none⟩, ⟨.write, 6, 20, some .noLink⟩] ∧
        s.closeRequests = 1 ∧ s.closeStarted = true := ⟨_, rfl, rfl, rfl, rfl⟩
  obtain ⟨-, -, -, -, -, -, hclosed⟩ := stream_calls_end hs (exec_nil s)
  obtain ⟨htable, hread⟩ := hclosed hstarted
  exact ⟨s, hs, hreturned, hone, htable, (hread false ()).2⟩

end StreamCalls

end Snova
