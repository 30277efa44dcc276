import Snova.Properties.Connection
import Snova.Properties.WriteProgress

/-!
# A connection does not get stuck

Four things move a connection: a coroutine that was woken in `Lock` resumes, the transport takes
bytes of the frame in `AsyncWrite` or reports it done, a coroutine whose send is complete leaves
`Unlock`, and the transport delivers bytes.  When none of them can happen and the reader waits,
there is nothing left to do: the frame of every call has been sent, and its event returned.

The mutex is the hard part.  A waiter in `Lock` is woken by a token, and the token may go to
another coroutine; that nobody is forgotten is `MutexState.Inv.wakeup`.  A coroutine may be left
in the send of `Unlock`, for the channel may be full (`unlock_suspends_on_free_lock`); its frame
has been sent, and the mutex is free.
-/

namespace Snova

variable {κ : Type} [DecidableEq κ]

/-! ## The writing node -/

namespace WriterState

variable {A : Aead} {pb : Nanopb} {key : Bytes} {iv₀ : UInt64} {s s' : WriterState κ} {c : κ}
  {call : ℕ} {event : MuxEvent} {env : WriteEnv}

/-- A call that has been started has a coroutine that will send its frame, or its frame has been
sent. -/
def Counted (s : WriterState κ) : Prop :=
  ∀ n < s.calls, (∃ c, unsentCall (s.job c) = some n) ∨ n ∈ s.done.map Prod.fst

/-- The transport takes no more bytes of a frame than there are. -/
def SentLe : WriteJob → Prop
  | .writing w => w.sent ≤ w.frame.length
  | _ => True

/-- What is known of the writing node of an open connection, beside `OpenInv`. -/
structure Settled (s : WriterState κ) : Prop where
  placed : Placed s
  counted : Counted s
  sentLe : ∀ c, SentLe (s.job c)

omit [DecidableEq κ] in
lemma settled_init (ctx : CipherContext) (masks : Bool) :
    Settled (init ctx masks : WriterState κ) :=
  ⟨fun _ => rfl, fun _ hn => absurd hn (Nat.not_lt_zero _), fun _ => trivial⟩

/-- A call whose event fits a chunk leaves `Lock` for `AsyncWrite`. -/
structure Proceeds (s : WriterState κ) (c : κ) (call : ℕ) (s' : WriterState κ)
    (job : WriteJob) : Prop where
  jobs : s'.job = Function.update s.job c job
  unsent : unsentCall job = some call
  sentLe : SentLe job
  done : s'.done = s.done
  calls : s'.calls = s.calls

lemma afterLock_proceeds {m : MutexState κ} (hk : s.cipherCtx.Keyed key)
    (hsmall : (event.body.encoded pb).length ≤ kMaxChunkSize)
    (h : s.afterLock A pb c call event env m = some s') : ∃ job, Proceeds s c call s' job := by
  simp only [afterLock] at h
  split at h
  · have hrc : (s.cipherCtx.encrypt A pb event writeBufferSize).rc = 0 :=
      CipherContext.encrypt_rc_of_le hk hsmall (by rw [hk.tagLen]; decide)
    simp only [runEncrypt] at h
    rw [if_neg (by simp [hrc])] at h
    obtain rfl := Option.some.inj h
    exact ⟨_, rfl, rfl, Nat.zero_le _, rfl, rfl⟩
  · obtain rfl := Option.some.inj h
    exact ⟨_, rfl, rfl, trivial, rfl, rfl⟩

/-- The calls that a coroutine's next job accounts for. -/
lemma Counted.move (job : WriteJob) (h : Counted s) (hjob : s'.job = Function.update s.job c job)
    (hkeep : ∀ n, unsentCall (s.job c) = some n →
      unsentCall job = some n ∨ n ∈ s'.done.map Prod.fst)
    (hdone : ∀ x ∈ s.done, x ∈ s'.done)
    (hcalls : ∀ n < s'.calls, n < s.calls ∨ unsentCall job = some n) : Counted s' := by
  intro n hn
  have hself : unsentCall job = some n → ∃ d, unsentCall (s'.job d) = some n := fun hcall =>
    ⟨c, by rw [hjob, Function.update_self, hcall]⟩
  rcases hcalls n hn with hold | hnew
  · rcases h n hold with ⟨d, hd⟩ | hsent
    · by_cases hdc : d = c
      · subst hdc
        exact (hkeep n hd).imp_left hself
      · exact .inl ⟨d, by rw [hjob, Function.update_of_ne hdc, hd]⟩
    · obtain ⟨x, hx, rfl⟩ := List.mem_map.mp hsent
      exact .inr (List.mem_map_of_mem (hdone x hx))
  · exact .inl (hself hnew)

lemma sentLe_update (job : WriteJob) (h : ∀ d, SentLe (s.job d)) (hjob : SentLe job) (d : κ) :
    SentLe (Function.update s.job c job d) := by
  by_cases hd : d = c
  · subst hd
    rwa [Function.update_self]
  · rw [Function.update_of_ne hd]
    exact h d

lemma Leaves.sentLe {success : Bool} (h : Leaves s c call success s')
    (hs : ∀ d, SentLe (s.job d)) (d : κ) : SentLe (s'.job d) := by
  cases h with
  | returned same job record =>
      rw [job]
      exact sentLe_update .idle hs trivial d
  | unlocking same job record =>
      rw [job]
      exact sentLe_update (.unlocking call success) hs trivial d

/-- The events of the calls that are in `Lock`, or begin, fit a chunk. -/
def Small (pb : Nanopb) (s : WriterState κ) : WriteAction κ → Prop
  | .write _ event _ => (event.body.encoded pb).length ≤ kMaxChunkSize
  | .resume c _ => ∀ call event, s.job c = .locking call event →
      (event.body.encoded pb).length ≤ kMaxChunkSize
  | _ => True

/-- A step of an open connection on which no `AsyncWrite` fails. -/
lemma settled_step [Fintype κ] {a : WriteAction κ} (h : Settled s) (hbase : Base key s)
    (hinv : OpenInv A pb key iv₀ s) (herr : NoOpenError s a) (hsmall : Small pb s a)
    (hclose : a ≠ .close) (hstep : step A pb s a = some s') : Settled s' := by
  obtain ⟨hplaced, hcounted, hsentLe⟩ := h
  have hplaced' := step_placed (.inl hinv.mutex) hplaced hstep
  cases a with
  | write c event env =>
      simp only [step] at hstep
      split at hstep
      · next hidle =>
          obtain ⟨m, -, hafter⟩ := Option.bind_eq_some_iff.mp hstep
          obtain ⟨job, hp⟩ := afterLock_proceeds (s := s.start c event) hbase.keyed hsmall hafter
          have hjob : s'.job = Function.update s.job c job := by
            rw [hp.jobs]
            exact Function.update_idem ..
          refine ⟨hplaced', ?_, fun d => hjob ▸ sentLe_update _ hsentLe hp.sentLe d⟩
          refine hcounted.move job hjob (fun n hn => ?_) (fun x hx => ?_) fun n hn => ?_
          · rw [hidle] at hn
            cases hn
          · rw [hp.done]
            exact hx
          · rw [hp.calls] at hn
            rcases Nat.lt_succ_iff_lt_or_eq.mp hn with hlt | rfl
            · exact .inl hlt
            · exact .inr hp.unsent
      · cases hstep
  | resume c env =>
      simp only [step] at hstep
      split at hstep
      · next call event hlocking =>
          obtain ⟨m, -, hafter⟩ := Option.bind_eq_some_iff.mp hstep
          obtain ⟨job, hp⟩ := afterLock_proceeds hbase.keyed (hsmall call event hlocking) hafter
          refine ⟨hplaced', ?_, fun d => hp.jobs ▸ sentLe_update _ hsentLe hp.sentLe d⟩
          refine hcounted.move job hp.jobs (fun n hn => .inl ?_) (fun x hx => ?_)
            fun n hn => .inl ?_
          · rw [hlocking] at hn
            exact hp.unsent.trans hn
          · rw [hp.done]
            exact hx
          · rwa [hp.calls] at hn
      · cases hstep
  | transmit c n =>
      simp only [step] at hstep
      split at hstep
      · next w hw =>
          split at hstep
          · next hguard =>
            obtain rfl := Option.some.inj hstep
            refine ⟨hplaced', ?_, sentLe_update _ hsentLe hguard.2.2⟩
            refine hcounted.move _ (c := c) rfl (fun m hm => .inl ?_) (fun x hx => hx)
              fun m hm => .inl hm
            rw [hw] at hm
            exact hm
          · cases hstep
      · cases hstep
  | complete c =>
      simp only [step] at hstep
      split at hstep
      · next w hw =>
          split at hstep
          · obtain ⟨hleft, -, -⟩ := runUnlock_leaves hstep
            refine ⟨hplaced', ?_, hleft.sentLe hsentLe⟩
            obtain ⟨job, hjob, -, -, -⟩ := hleft.exists_job
            refine hcounted.move job hjob (fun n hn => .inr ?_) (fun x hx => ?_) fun n hn => .inl ?_
            · rw [hw] at hn
              rw [hleft.same.done, ← Option.some.inj hn]
              simp
            · rw [hleft.same.done]
              exact List.mem_append_left _ hx
            · rwa [hleft.same.calls] at hn
          · cases hstep
      · cases hstep
  | writeError c => exact absurd hinv.isOpen herr
  | unlocked c =>
      simp only [step] at hstep
      split at hstep
      · next call success hjob =>
          obtain ⟨m, -, rfl⟩ := Option.map_eq_some_iff.mp hstep
          refine ⟨hplaced', ?_, sentLe_update .idle hsentLe trivial⟩
          refine hcounted.move .idle (c := c) rfl (fun n hn => ?_) (fun x hx => hx)
            fun n hn => .inl hn
          rw [hjob] at hn
          cases hn
      · cases hstep
  | close => exact absurd rfl hclose

/-! ### When nothing can go on -/

/-- The steps of the writing node that wait for nobody outside. -/
def Own : WriteAction κ → Prop
  | .resume .. => True
  | .transmit .. => True
  | .complete _ => True
  | .unlocked _ => True
  | _ => False

/-- **A quiet writing node has sent every frame.**  A coroutine that is still in `Write` waits in
the send of `Unlock`. -/
lemma Settled.quiet [Fintype κ] (h : Settled s) (hinv : OpenInv A pb key iv₀ s)
    (hquiet : ∀ a, Own a → step A pb s a = none) (c : κ) :
    s.job c = .idle ∨
      (∃ call success, s.job c = .unlocking call success) ∧ s.writeMutex.pc c = .sending := by
  have hwriting : ∀ d w, s.job d ≠ .writing w := by
    intro d w hw
    have hle := h.sentLe d
    rw [hw] at hle
    rcases Nat.lt_or_eq_of_le hle with hlt | heq
    · have hnone := hquiet (.transmit d (w.frame.length - w.sent)) trivial
      simp only [step, hw] at hnone
      rw [if_pos ⟨hinv.isOpen, by omega, by omega⟩] at hnone
      cases hnone
    · have hnone := hquiet (.complete d) trivial
      simp only [step, hw] at hnone
      rw [if_pos heq] at hnone
      exact runUnlock_ne_none (s := { s with done := s.done ++ [(w.call, w.event)] })
        (.inl ((hinv.holder d).mpr ⟨w, hw⟩)) hnone
  have hwoken : ∀ d, s.writeMutex.pc d ≠ .woken false := by
    intro d hd
    have hregion := h.placed d
    rw [hd] at hregion
    cases hjob : s.job d with
    | locking call event =>
        have hnone := hquiet (.resume d ⟨[], []⟩) trivial
        simp only [step, hjob, MutexState.step, hd, Option.bind_some] at hnone
        exact afterLock_ne_none hnone
    | _ =>
        rw [hjob] at hregion
        cases hregion
  have hholding : ∀ d, s.writeMutex.pc d ≠ .holding := fun d hd => by
    obtain ⟨w, hw⟩ := (hinv.holder d).mp hd
    exact hwriting d w hw
  have hlocking := hinv.mutex.region_ne_locking hholding hwoken c
  have hregion := h.placed c
  cases hjob : s.job c with
  | idle => exact .inl rfl
  | locking call event =>
      rw [hjob] at hregion
      exact absurd hregion hlocking
  | writing w => exact absurd hjob (hwriting c w)
  | unlocking call success =>
      refine .inr ⟨⟨call, success, rfl⟩, ?_⟩
      rw [hjob] at hregion
      cases hpc : s.writeMutex.pc c with
      | sending => rfl
      | sent =>
          have hnone := hquiet (.unlocked c) trivial
          simp only [step, hjob, MutexState.step, hpc, if_true, Option.map_some] at hnone
          cases hnone
      | _ =>
          rw [hpc] at hregion
          cases hregion

/-- So every call has had its frame sent. -/
lemma Settled.quiet_done [Fintype κ] (h : Settled s) (hinv : OpenInv A pb key iv₀ s)
    (hquiet : ∀ a, Own a → step A pb s a = none) {n : ℕ} (hn : n < s.calls) :
    n ∈ s.done.map Prod.fst := by
  refine (h.counted n hn).resolve_left ?_
  rintro ⟨c, hc⟩
  rcases h.quiet hinv hquiet c with hidle | ⟨⟨call, success, hjob⟩, -⟩
  · rw [hidle] at hc
    cases hc
  · rw [hjob] at hc
    cases hc

end WriterState

/-! ## Both nodes -/

namespace Connection

variable [Fintype κ] {A : Aead} {pb : Nanopb} {key : Bytes} {iv₀ : UInt64} {s s' : Connection κ}
  {receiver : CipherContext} {current : Span}

/-- The steps of a connection that wait for nobody outside. -/
def Own : ConnectionAction κ → Prop
  | .write a => WriterState.Own a
  | .readEvent => True
  | .deliver _ => True
  | .disconnect _ => False

/-- What is known of an open connection at any time, as long as every event fits a chunk. -/
def Settles (pb : Nanopb) (s : Connection κ) : Prop :=
  s.writer.closedAt = none → (∀ event ∈ s.started, (event.body.encoded pb).length ≤ kMaxChunkSize) →
    s.writer.Settled

omit [DecidableEq κ] in
lemma Carries.openInv (h : Carries A pb key iv₀ receiver s) (hopen : s.writer.closedAt = none) :
    WriterState.OpenInv A pb key iv₀ s.writer :=
  h.sending.inv.resolve_right fun hclosed => hclosed.1 hopen

lemma step_settles {a : ConnectionAction κ} (hcarries : Carries A pb key iv₀ receiver s)
    (h : Settles pb s) (herr : OnlyClosedErrors s a) (hstep : step A pb s a = some s') :
    Settles pb s' := by
  intro hopen hsmall
  cases a with
  | write a =>
      obtain ⟨writer, hwriter, rfl⟩ := Option.map_eq_some_iff.mp hstep
      have hbefore : s.writer.closedAt = none := by
        by_contra hclosed
        have hinv := (hcarries.sending.inv.resolve_left fun hopen => hclosed hopen.isOpen).2
        exact (WriterState.step_closedInv hcarries.sending.base hclosed hinv hwriter).2.1 hopen
      have hold := h hbefore fun event hevent => hsmall event (List.mem_append_left _ hevent)
      refine WriterState.settled_step hold hcarries.sending.base (hcarries.openInv hbefore) herr
        ?_ ?_ hwriter
      · cases a with
        | write c event env => exact hsmall event (List.mem_append_right _ List.mem_cons_self)
        | resume c env =>
            intro call event hjob
            have hget := hcarries.sending.tracked.job c (call, event) (by rw [hjob]; rfl)
            exact hsmall event (List.mem_append_left _ (List.mem_of_getElem? hget))
        | _ => trivial
      · rintro rfl
        simp only [WriterState.step] at hwriter
        obtain ⟨m, -, rfl⟩ := Option.map_eq_some_iff.mp hwriter
        simp at hopen
  | readEvent =>
      obtain ⟨reader, -, rfl⟩ := Option.map_eq_some_iff.mp hstep
      exact h hopen hsmall
  | deliver n =>
      obtain ⟨reader, -, rfl⟩ := Option.map_eq_some_iff.mp hstep
      exact h hopen hsmall
  | disconnect rc =>
      obtain ⟨reader, -, rfl⟩ := Option.map_eq_some_iff.mp hstep
      exact h hopen hsmall

/-- A transport that can deliver nothing to a waiting reader has nothing in transit. -/
lemma Carries.inTransit_eq_nil (h : Carries A pb key iv₀ receiver s)
    (hphase : s.reader.phase = .reading current) (hdeliver : s.step A pb (.deliver 1) = none) :
    s.inTransit = [] := by
  obtain ⟨items, hreading⟩ := h.reading
  have hinv := hreading.phase
  rw [ReaderState.PhaseInv, hphase] at hinv
  by_contra hne
  have hlength : (s.inTransit.take 1).length = 1 := by
    rw [List.length_take, min_eq_left (List.length_pos_of_ne_nil hne)]
  have hroom : s.inTransit.take 1 ≠ [] ∧
      current.len + (s.inTransit.take 1).length ≤ readBufferSize := by
    refine ⟨fun hnil => ?_, ?_⟩
    · rw [hnil] at hlength
      cases hlength
    · rw [hlength]
      exact hinv.2.2
  simp only [step, ReaderState.step, hphase] at hdeliver
  rw [dif_pos hroom] at hdeliver
  cases hdeliver

lemma run_settles {sender : CipherContext} {masks : Bool} {as : List (ConnectionAction κ)}
    (hk : sender.Keyed key) (htag : receiver.cipherTagLen ≤ 16)
    (herr : Along (step A pb) OnlyClosedErrors (init sender receiver masks) as)
    (h : exec (step A pb) (init sender receiver masks) as = some s) :
    Carries A pb key sender.encryptIv receiver s ∧ Settles pb s := by
  refine exec_invariant_along
    (I := fun s => Carries A pb key sender.encryptIv receiver s ∧ Settles pb s) ?_ ?_ herr h
  · rintro s a s' ⟨hcarries, hsettles⟩ hC hstep
    exact ⟨step_carries hcarries hC hstep, step_settles hcarries hsettles hC hstep⟩
  · exact ⟨⟨WriterState.sending_init hk masks, ⟨[], htag, rfl, Nat.zero_le _, rfl, rfl⟩,
      List.nil_prefix⟩, fun _ _ => WriterState.settled_init sender masks⟩

lemma filterMap_range_getElem? {α : Type*} (l : List α) :
    (List.range l.length).filterMap (fun n => l[n]?) = l := by
  refine List.reverseRecOn l rfl fun l x ih => ?_
  rw [List.length_append, List.length_singleton, List.range_succ, List.filterMap_append]
  have hfirst : (List.range l.length).filterMap (fun n => (l ++ [x])[n]?) =
      (List.range l.length).filterMap fun n => l[n]? := by
    refine List.filterMap_congr fun n hn => ?_
    rw [List.getElem?_append_left (List.mem_range.mp hn)]
  rw [hfirst, ih]
  simp

omit [DecidableEq κ] in
/-- When every call has had its frame sent, the events sent are those that were given to `Write`,
in another order. -/
lemma done_perm (h : Carries A pb key iv₀ receiver s)
    (hdone : ∀ n < s.writer.calls, n ∈ s.writer.done.map Prod.fst) :
    (s.writer.done.map Prod.snd).Perm s.started := by
  obtain ⟨hlength, -, htracked⟩ := h.sending.tracked
  have hledger := h.sending.ledger
  have hrange : (s.writer.done.map Prod.fst).Perm (List.range s.started.length) := by
    refine (List.perm_ext_iff_of_nodup hledger.nodup List.nodup_range).mpr fun n => ?_
    rw [List.mem_range, hlength]
    refine ⟨fun hn => ?_, hdone n⟩
    obtain ⟨x, hx, rfl⟩ := List.mem_map.mp hn
    exact hledger.done_lt x hx
  have hevents : s.writer.done.map Prod.snd =
      (s.writer.done.map Prod.fst).filterMap fun n => s.started[n]? := by
    rw [List.filterMap_map, ← List.filterMap_eq_map]
    refine List.filterMap_congr fun x hx => ?_
    exact (htracked x hx).symm
  rw [hevents]
  exact (hrange.filterMap _).trans (.of_eq (filterMap_range_getElem? s.started))

/-- What a connection that can do nothing more has done. -/
structure AtRest (s : Connection κ) : Prop where
  reading : (∃ current, s.reader.phase = .reading current) ∨ ∃ rc, s.reader.phase = .disconnected rc
  sent : (s.writer.done.map Prod.snd).Perm s.started
  delivered : (∀ rc, s.reader.phase ≠ .disconnected rc) →
    List.Forall₂ (fun event x => event.Same x.2) s.reader.events s.writer.done
  coroutines : ∀ c, s.writer.job c = .idle ∨
    (∃ call success, s.writer.job c = .unlocking call success ∧
      call ∈ s.writer.done.map Prod.fst) ∧ s.writer.writeMutex.pc c = .sending

lemma Carries.atRest (h : Carries A pb key iv₀ receiver s) (hsettles : Settles pb s)
    (hr : receiver.Keyed key) (hiv : iv₀ = receiver.decryptIv)
    (hbody : ∀ event ∈ s.started, (event.body.encoded pb).length ≤ kMaxChunkSize)
    (hopen : s.writer.closedAt = none) (hquiet : ∀ a, Own a → step A pb s a = none) :
    AtRest s := by
  have hsettled := hsettles hopen hbody
  have hinv := h.openInv hopen
  have hwriter : ∀ a, WriterState.Own a → WriterState.step A pb s.writer a = none := fun a ha =>
    Option.map_eq_none_iff.mp (hquiet (.write a) ha)
  have hcoroutines := hsettled.quiet hinv hwriter
  have hidle : ∀ c w, s.writer.job c ≠ .writing w := by
    intro c w hw
    rcases hcoroutines c with hjob | ⟨⟨call, success, hjob⟩, -⟩ <;> rw [hjob] at hw <;> cases hw
  have hwire := WriterState.onWire_done h.sending.ledger h.sending.tracked (hinv.free hidle).1
  obtain ⟨hevents, hfine⟩ := h.events_same hr hiv hbody hwire
  have hreading : (∃ current, s.reader.phase = .reading current) ∨
      ∃ rc, s.reader.phase = .disconnected rc := by
    cases hphase : s.reader.phase with
    | idle =>
        have hnone := hquiet .readEvent trivial
        simp only [step, ReaderState.step, hphase, Option.map_some] at hnone
        cases hnone
    | reading current => exact .inl ⟨current, rfl⟩
    | failed rc => exact absurd hphase (hfine rc)
    | disconnected rc => exact .inr ⟨rc, rfl⟩
  have hdone : ∀ n < s.writer.calls, n ∈ s.writer.done.map Prod.fst := fun n hn =>
    hsettled.quiet_done hinv hwriter hn
  refine ⟨hreading, done_perm h hdone, fun hconnected => ?_, fun c => ?_⟩
  · have hnever : ¬ ∃ rc, s.reader.phase = .disconnected rc := by
      rintro ⟨rc, hrc⟩
      exact hconnected rc hrc
    obtain ⟨current, hphase⟩ := hreading.resolve_right hnever
    have hnone := h.inTransit_eq_nil hphase (hquiet (.deliver 1) trivial)
    have hle := h.done_le hr hiv hbody hphase hnone
    rwa [List.take_of_length_le hle] at hevents
  · rcases hcoroutines c with hjob | ⟨⟨call, success, hjob⟩, hsending⟩
    · exact .inl hjob
    · have hcall := h.sending.ledger.fresh c call (by rw [hjob]; rfl)
      exact .inr ⟨⟨call, success, hjob, hdone call hcall⟩, hsending⟩

/-- **A connection does not get stuck.**  Any number of coroutines write on an authenticated
connection that is not closed, no `AsyncWrite` fails, and every event fits a chunk.  In every state
reached in which no coroutine and no transport can do anything more:

* the reader waits in `AsyncRead`, unless its transport has failed;
* the frame of every call of `Write` has been sent, each one once;
* a reader that waits has returned their events, in the order in which they were sent;
* a coroutine that is still in `Write` waits in the send of `Unlock`, its frame sent. -/
theorem quiet_connection_has_delivered (A : Aead) (pb : Nanopb) (key : Bytes)
    (sender receiver : CipherContext) (hs : sender.FromNew "chacha20_poly1305" key)
    (hr : receiver.FromNew "chacha20_poly1305" key) (hiv : sender.encryptIv = receiver.decryptIv)
    (masks : Bool) (as : List (ConnectionAction κ)) (s : Connection κ)
    (herr : Along (step A pb) OnlyClosedErrors (init sender receiver masks) as)
    (h : exec (step A pb) (init sender receiver masks) as = some s)
    (hbody : ∀ event ∈ s.started, (event.body.encoded pb).length ≤ kMaxChunkSize)
    (hopen : s.writer.closedAt = none) (hquiet : ∀ a, Own a → step A pb s a = none) :
    ((∃ current, s.reader.phase = .reading current) ∨ ∃ rc, s.reader.phase = .disconnected rc) ∧
      (s.writer.done.map Prod.snd).Perm s.started ∧
      ((∀ rc, s.reader.phase ≠ .disconnected rc) →
        List.Forall₂ (fun event x => event.Same x.2) s.reader.events s.writer.done) ∧
      ∀ c, s.writer.job c = .idle ∨
        (∃ call success, s.writer.job c = .unlocking call success ∧
          call ∈ s.writer.done.map Prod.fst) ∧ s.writer.writeMutex.pc c = .sending := by
  obtain ⟨hcarries, hsettles⟩ := run_settles hs.keyed hr.tagLen_le herr h
  obtain ⟨hreading, hsent, hdelivered, hcoroutines⟩ :=
    hcarries.atRest hsettles hr.keyed hiv hbody hopen hquiet
  exact ⟨hreading, hsent, hdelivered, hcoroutines⟩

/-- Two coroutines write, the second one waits for the first.  Both frames arrive, the first one
in two pieces, and the reader waits for more. -/
def quietConnection : List (ConnectionAction Bool) :=
  [.write (.write false (.ofBody .streamCloseRequest 1) ⟨[], []⟩),
    .write (.write true (.ofBody .streamCloseRequest 3) ⟨[], []⟩),
    .readEvent, .write (.transmit false 24), .deliver 10, .write (.complete false),
    .write (.unlocked false), .write (.resume true ⟨[], []⟩), .write (.transmit true 24),
    .write (.complete true), .deliver 20, .readEvent, .deliver 20, .readEvent]

omit [Fintype κ] in
/-- Nobody writes, the reader waits, and nothing is in transit. -/
lemma own_eq_none {t : Connection κ} {current : Span}
    (hidle : ∀ c, WriterState.jobCall (t.writer.job c) = none)
    (hphase : t.reader.phase = .reading current) (hnone : t.inTransit = [])
    (a : ConnectionAction κ) (ha : Own a) : step A pb t a = none := by
  have hjob : ∀ c, t.writer.job c = .idle := fun c => WriterState.jobCall_eq_none (hidle c)
  cases a with
  | write a => cases a <;> first | exact ha.elim | simp [step, WriterState.step, hjob]
  | readEvent => simp [step, ReaderState.step, hphase]
  | deliver n => simp [step, ReaderState.step, hphase, hnone]
  | disconnect rc => exact ha.elim

theorem quiet_connection_has_delivered_two_writers :
    ∃ ctx s, CipherContext.new "chacha20_poly1305" [1] = some ctx ∧
      exec (step chacha20Poly1305 protobuf) (init ctx ctx false) quietConnection = some s ∧
      s.reader.events.length = 2 ∧ s.writer.done.length = 2 ∧
      (s.writer.done.map Prod.snd).Perm s.started ∧
      List.Forall₂ (fun event x => event.Same x.2) s.reader.events s.writer.done := by
  have hrun : ((CipherContext.new "chacha20_poly1305" [1]).bind fun ctx =>
      (exec (step chacha20Poly1305 protobuf) (init ctx ctx false) quietConnection).map fun s =>
        decide (s.reader.events.length = 2 ∧ s.writer.done.length = 2 ∧
          (∀ event ∈ s.started, (event.body.encoded protobuf).length ≤ kMaxChunkSize) ∧
          (∀ c, WriterState.jobCall (s.writer.job c) = none) ∧
          s.reader.phase = .reading ⟨24, 0, by decide⟩ ∧ s.inTransit = [] ∧
          s.writer.closedAt = none)) = some true := by
    decide +kernel
  obtain ⟨ctx, hctx, hmap⟩ := Option.bind_eq_some_iff.mp hrun
  obtain ⟨s, hs, hfields⟩ := Option.map_eq_some_iff.mp hmap
  obtain ⟨hevents, hdone, hsmall, hidle, hphase, hnone, hopen⟩ := of_decide_eq_true hfields
  obtain ⟨-, hsent, hdelivered, -⟩ := quiet_connection_has_delivered chacha20Poly1305 protobuf [1]
    ctx ctx ⟨ctx, hctx, rfl⟩ ⟨ctx, hctx, rfl⟩ (CipherContext.encryptIv_of_new hctx) false
    quietConnection s (onlyClosedErrors_of_forall (by simp [quietConnection]) _) hs hsmall
    hopen (own_eq_none hidle hphase hnone)
  exact ⟨ctx, s, hctx, hs, hevents, hdone, hsent, hdelivered (by simp [hphase])⟩

end Connection

end Snova
