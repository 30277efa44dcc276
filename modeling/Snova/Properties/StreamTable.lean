import Snova.Model.StreamTable

/-!
# Open streams and their ids

The table forgets a stream by its id, not by the stream, and `New` keeps the old stream when the id
is taken.  So two streams with one id get in each other's way as long as the relay of the earlier
one has not cleaned up: an open one hides the later stream, and the close or the clean-up of the
earlier one takes the later one out of the table.

Where every `New` is for an id without such a relay, an open stream is always found under its id.
-/

namespace Snova

namespace StreamTable

/-- The stream has been made and not been closed. -/
def IsOpen (s : StreamTable) (c : ℕ) : Prop := c < s.created ∧ (s.stream c).closed = false

/-- The action closes or cleans up stream `c`. -/
def Ends (s : StreamTable) : TableAction → ℕ → Prop
  | .new _, _ => False
  | .close d, c => d = c
  | .closeEvent id, c => s.get id = some c
  | .cleanup d, c => d = c

/-- Every open stream is the one `Get` returns for its id, `Get` returns nothing but open streams,
each under its own id, and no close or clean-up of a stream takes another one out of the table. -/
def Registered (s : StreamTable) : Prop :=
  (∀ c, s.IsOpen c → s.get (s.stream c).id = some c) ∧
  (∀ id c, s.get id = some c → s.IsOpen c ∧ (s.stream c).id = id) ∧
  ∀ a c s', s.Ends a c → s.step a = some s' →
    ∀ d, d ≠ c → s.IsOpen d → s'.get (s.stream d).id = some d

/-- `New` is called for an id for which no relay of an earlier stream has its clean-up before it. -/
def IdFree (s : StreamTable) : TableAction → Prop
  | .new id => ∀ c < s.created, (s.stream c).id = id → (s.stream c).cleaned = true
  | _ => True

/-- The invariant: streams with one id are cleaned up one after the other. -/
structure Invariant (s : StreamTable) : Prop where
  get_open : ∀ c, s.IsOpen c → s.get (s.stream c).id = some c
  open_get : ∀ id c, s.get id = some c → s.IsOpen c ∧ (s.stream c).id = id
  closed_of_cleaned : ∀ c < s.created, (s.stream c).cleaned = true → (s.stream c).closed = true
  unique : ∀ c < s.created, ∀ d < s.created, (s.stream c).id = (s.stream d).id →
    (s.stream c).cleaned = false → (s.stream d).cleaned = false → c = d

namespace Invariant

variable {s s' : StreamTable}

lemma init : Invariant StreamTable.init where
  get_open c hc := absurd hc.1 (Nat.not_lt_zero c)
  open_get id c hc := by cases hc
  closed_of_cleaned c hc := absurd hc (Nat.not_lt_zero c)
  unique c hc := absurd hc (Nat.not_lt_zero c)

/-- An id without a relay that has its clean-up before it is not in the table. -/
lemma get_eq_none (h : s.Invariant) {id : ClientStreamID} (hfree : s.IdFree (.new id)) :
    s.get id = none := by
  rcases hget : s.get id with _ | c
  · rfl
  · obtain ⟨hopen, hid⟩ := h.open_get id c hget
    have hclosed := h.closed_of_cleaned c hopen.1 (hfree c hopen.1 hid)
    rw [hopen.2] at hclosed
    cases hclosed

lemma new (h : s.Invariant) {id : ClientStreamID} (hfree : s.IdFree (.new id)) :
    (s.new id).Invariant := by
  have hnone : s.streams id = none := h.get_eq_none hfree
  have heq : s.new id = ⟨Function.update s.streams id (some s.created), s.created + 1,
      Function.update s.stream s.created { id := id }⟩ := by
    rw [StreamTable.new, hnone]
  have hold : ∀ {c}, c < s.created + 1 → c ≠ s.created → c < s.created :=
    fun hlt hne => lt_of_le_of_ne (Nat.le_of_lt_succ hlt) hne
  rw [heq]
  constructor
  · intro c hc
    by_cases hnew : c = s.created
    · subst hnew
      simp [get]
    · have hopen : s.IsOpen c := ⟨hold hc.1 hnew, by simpa [hnew] using hc.2⟩
      have hget := h.get_open c hopen
      have hne : (s.stream c).id ≠ id := by
        intro he
        rw [he, get, hnone] at hget
        cases hget
      simpa [get, hnew, hne] using hget
  · intro id' c hc
    by_cases hid : id' = id
    · subst hid
      obtain rfl : s.created = c := by simpa [get] using hc
      exact ⟨⟨Nat.lt_succ_self _, by simp⟩, by simp⟩
    · have hget : s.get id' = some c := by simpa [get, hid] using hc
      obtain ⟨hopen, hc'⟩ := h.open_get id' c hget
      have hne : c ≠ s.created := hopen.1.ne
      exact ⟨⟨Nat.lt_succ_of_lt hopen.1, by simpa [hne] using hopen.2⟩, by simpa [hne] using hc'⟩
  · intro c hlt hclean
    by_cases hnew : c = s.created
    · simp [hnew] at hclean
    · simpa [hnew] using h.closed_of_cleaned c (hold hlt hnew) (by simpa [hnew] using hclean)
  · intro c hc d hd hid hcc hdc
    by_cases hcn : c = s.created
    · by_cases hdn : d = s.created
      · rw [hcn, hdn]
      · have hclean := hfree d (hold hd hdn) (by simpa [hcn, hdn] using hid.symm)
        simp [hdn, hclean] at hdc
    · by_cases hdn : d = s.created
      · have hclean := hfree c (hold hc hcn) (by simpa [hcn, hdn] using hid)
        simp [hcn, hclean] at hcc
      · exact h.unique c (hold hc hcn) d (hold hd hdn) (by simpa [hcn, hdn] using hid)
          (by simpa [hcn] using hcc) (by simpa [hdn] using hdc)

end Invariant

/-- What the close and the clean-up of a stream have in common: its id leaves the table. -/
def drop (s : StreamTable) (c : ℕ) (x : TableStream) : StreamTable :=
  { s.remove (s.stream c).id with stream := Function.update s.stream c x }

namespace Invariant

variable {s s' : StreamTable} {c : ℕ} {x : TableStream}

/-- Another stream that is open has another id. -/
lemma id_ne (h : s.Invariant) (hc : c < s.created) (hclean : (s.stream c).cleaned = false) {d : ℕ}
    (hd : s.IsOpen d) (hne : d ≠ c) : (s.stream d).id ≠ (s.stream c).id := by
  intro hid
  refine hne (h.unique d hd.1 c hc hid ?_ hclean)
  rw [← Bool.not_eq_true]
  intro hd'
  have hclosed := h.closed_of_cleaned d hd.1 hd'
  rw [hd.2] at hclosed
  cases hclosed

lemma get_drop (h : s.Invariant) (hc : c < s.created) (hclean : (s.stream c).cleaned = false)
    {d : ℕ} (hd : s.IsOpen d) (hne : d ≠ c) : (s.drop c x).get (s.stream d).id = some d := by
  have hkeep : (s.drop c x).get (s.stream d).id = s.get (s.stream d).id :=
    Function.update_of_ne (h.id_ne hc hclean hd hne) _ _
  rw [hkeep]
  exact h.get_open d hd

lemma drop (h : s.Invariant) (hc : c < s.created) (hclean : (s.stream c).cleaned = false)
    (hid : x.id = (s.stream c).id) (hclosed : x.closed = true) : (s.drop c x).Invariant := by
  have hother : ∀ d, d ≠ c → (s.drop c x).stream d = s.stream d :=
    fun d hd => Function.update_of_ne hd _ _
  have hself : (s.drop c x).stream c = x := Function.update_self _ _ _
  constructor
  · intro d hd
    have hne : d ≠ c := by
      rintro rfl
      have hopen := hd.2
      rw [hself, hclosed] at hopen
      cases hopen
    have hopen : s.IsOpen d := ⟨hd.1, hother d hne ▸ hd.2⟩
    rw [hother d hne]
    exact h.get_drop hc hclean hopen hne
  · intro id d hd
    have hne : id ≠ (s.stream c).id := by
      rintro rfl
      simp [get, StreamTable.drop, remove] at hd
    have hget : s.get id = some d := by
      simpa [get, StreamTable.drop, remove, hne] using hd
    obtain ⟨hopen, hdid⟩ := h.open_get id d hget
    have hdc : d ≠ c := by
      rintro rfl
      exact hne hdid.symm
    exact ⟨⟨hopen.1, (hother d hdc).symm ▸ hopen.2⟩, (hother d hdc).symm ▸ hdid⟩
  · intro d hd hdclean
    by_cases hdc : d = c
    · rw [hdc, hself, hclosed]
    · rw [hother d hdc] at hdclean ⊢
      exact h.closed_of_cleaned d hd hdclean
  · have hid' : ∀ d, ((s.drop c x).stream d).id = (s.stream d).id := by
      intro d
      by_cases hdc : d = c
      · rw [hdc, hself, hid]
      · rw [hother d hdc]
    have hclean' : ∀ d, ((s.drop c x).stream d).cleaned = false → (s.stream d).cleaned = false := by
      intro d hd
      by_cases hdc : d = c
      · rw [hdc, hclean]
      · rwa [hother d hdc] at hd
    intro d hd e he hde hdclean heclean
    rw [hid' d, hid' e] at hde
    exact h.unique d hd e he hde (hclean' d hdclean) (hclean' e heclean)

/-- `Close` does nothing, or it drops a stream that is open. -/
lemma close_cases (h : s.Invariant) (hc : c < s.created) :
    s.close c = s ∨ (s.stream c).cleaned = false ∧
      s.close c = s.drop c { s.stream c with closed := true } := by
  rw [close]
  split
  · exact Or.inl rfl
  · rename_i hopen
    right
    refine ⟨?_, rfl⟩
    rw [← Bool.not_eq_true]
    exact fun hclean => hopen (h.closed_of_cleaned c hc hclean)

/-- An action that is not a `New` does nothing, or it drops the stream it ends. -/
lemma step_cases (h : s.Invariant) {a : TableAction} (hstep : s.step a = some s') :
    (∃ id, a = .new id ∧ s' = s.new id) ∨ s' = s ∨
      ∃ c x, s.Ends a c ∧ c < s.created ∧ (s.stream c).cleaned = false ∧
        x.id = (s.stream c).id ∧ x.closed = true ∧ s' = s.drop c x := by
  cases a with
  | new id => exact Or.inl ⟨id, rfl, (Option.some.inj hstep).symm⟩
  | close c =>
      rw [step] at hstep
      split at hstep
      · rename_i hc
        obtain rfl := Option.some.inj hstep
        rcases h.close_cases hc with heq | ⟨hclean, heq⟩
        · exact Or.inr (Or.inl heq)
        · exact Or.inr (Or.inr ⟨c, { s.stream c with closed := true }, rfl, hc, hclean, rfl, rfl,
            heq⟩)
      · cases hstep
  | closeEvent id =>
      rw [step] at hstep
      split at hstep
      · rename_i c hget
        obtain rfl := Option.some.inj hstep
        have hc := (h.open_get id c hget).1.1
        rcases h.close_cases hc with heq | ⟨hclean, heq⟩
        · exact Or.inr (Or.inl heq)
        · exact Or.inr (Or.inr ⟨c, { s.stream c with closed := true }, hget, hc, hclean, rfl, rfl,
            heq⟩)
      · exact Or.inr (Or.inl (Option.some.inj hstep).symm)
  | cleanup c =>
      rw [step] at hstep
      split at hstep
      · rename_i hc
        obtain rfl := Option.some.inj hstep
        exact Or.inr (Or.inr ⟨c, { s.stream c with cleaned := true }, rfl, hc.1, hc.2.2, rfl,
          hc.2.1, rfl⟩)
      · cases hstep

lemma step (h : s.Invariant) {a : TableAction} (hfree : s.IdFree a) (hstep : s.step a = some s') :
    s'.Invariant := by
  rcases h.step_cases hstep with ⟨id, rfl, rfl⟩ | rfl | ⟨c, x, -, hc, hclean, hid, hclosed, rfl⟩
  · exact h.new hfree
  · exact h
  · exact h.drop hc hclean hid hclosed

lemma registered (h : s.Invariant) : s.Registered := by
  refine ⟨h.get_open, h.open_get, fun a c s' hends hstep d hne hd => ?_⟩
  rcases h.step_cases hstep with ⟨id, rfl, -⟩ | rfl | ⟨c', x, hends', hc, hclean, -, -, rfl⟩
  · exact hends.elim
  · exact h.get_open d hd
  · have hcc : c' = c := by
      cases a with
      | new id => exact hends.elim
      | close e => exact hends'.symm.trans hends
      | closeEvent id => exact Option.some.inj (hends'.symm.trans hends)
      | cleanup e => exact hends'.symm.trans hends
    subst hcc
    exact h.get_drop hc hclean hd hne

end Invariant

/-! ## Runs -/

/-- A `New` for an id whose earlier relay has its clean-up before it can always go wrong. -/
lemma not_registered_of_not_idFree {s : StreamTable} {id : ClientStreamID}
    (h : ¬ s.IdFree (.new id)) :
    ∃ bs s', exec step s (.new id :: bs) = some s' ∧ ¬ s'.Registered := by
  have hstream : ∃ c < s.created, (s.stream c).id = id ∧ (s.stream c).cleaned = false := by
    simpa [IdFree] using h
  obtain ⟨c, hc, hid, hclean⟩ := hstream
  have hne : c ≠ s.created := hc.ne
  have hnew : (s.new id).IsOpen s.created := ⟨Nat.lt_succ_self _, by simp [StreamTable.new]⟩
  have hnewid : ((s.new id).stream s.created).id = id := by simp [StreamTable.new]
  have hold : (s.new id).stream c = s.stream c := by simp [StreamTable.new, hne]
  cases hclosed : (s.stream c).closed with
  | false =>
      -- two open streams with one id
      refine ⟨[], s.new id, rfl, fun hreg => ?_⟩
      have hget := hreg.1 s.created hnew
      have hget' := hreg.1 c ⟨Nat.lt_succ_of_lt hc, by rw [hold, hclosed]⟩
      rw [hnewid] at hget
      rw [hold, hid, hget] at hget'
      exact hne (Option.some.inj hget').symm
  | true =>
      -- the clean-up of the earlier relay takes the new stream out of the table
      have hguard : c < (s.new id).created ∧ ((s.new id).stream c).closed = true ∧
          ((s.new id).stream c).cleaned = false := by
        rw [hold]
        exact ⟨Nat.lt_succ_of_lt hc, hclosed, hclean⟩
      refine ⟨[.cleanup c], (s.new id).cleanup c, ?_, fun hreg => ?_⟩
      · rw [exec_cons_of_step rfl, exec_cons_of_step (if_pos hguard), exec_nil]
      · have hopen : ((s.new id).cleanup c).IsOpen s.created := by
          refine ⟨Nat.lt_succ_self _, ?_⟩
          simp [cleanup, StreamTable.new, hne.symm]
        have hget := hreg.1 s.created hopen
        simp [get, cleanup, remove, StreamTable.new, hne, hne.symm, hid] at hget

/-- **Open streams are in the table.**  In every run in which `New` is only called for ids without
a relay that has yet to clean up, every open stream is found under its id and ends take nobody
else out of the table; and any other `New` can be followed by steps that break this. -/
theorem open_streams_registered {as : List TableAction} {s : StreamTable}
    (hfree : Along step IdFree init as) (h : exec step init as = some s) :
    s.Registered ∧ ∀ id, ¬ IdFree s (.new id) →
      ∃ bs s', exec step s (.new id :: bs) = some s' ∧ ¬ s'.Registered := by
  have hinv : s.Invariant :=
    exec_invariant_along (fun _ _ _ hs hf hstep => hs.step hf hstep) Invariant.init hfree h
  exact ⟨hinv.registered, fun id hid => not_registered_of_not_idFree hid⟩

/-- An id is used again after its first relay has cleaned up. -/
theorem open_streams_registered_reused :
    ∃ s, exec step init [.new ⟨1, 1⟩, .closeEvent ⟨1, 1⟩, .cleanup 0, .new ⟨1, 1⟩] = some s ∧
      s.get ⟨1, 1⟩ = some 1 ∧ s.Registered := by
  have hfree : Along step IdFree init
      [.new ⟨1, 1⟩, .closeEvent ⟨1, 1⟩, .cleanup 0, .new ⟨1, 1⟩] := by
    refine .cons (fun c hc => absurd hc (Nat.not_lt_zero c)) rfl (.cons trivial rfl
      (.cons trivial rfl (.cons ?_ rfl trivial)))
    intro c hc _
    obtain rfl : c = 0 := Nat.lt_one_iff.mp hc
    rfl
  exact ⟨_, rfl, rfl, (open_streams_registered hfree rfl).1⟩

/-- The peer opens a stream under the id of one that is still open. -/
theorem second_open_not_registered :
    ∃ s, exec step init [.new ⟨1, 1⟩, .new ⟨1, 1⟩] = some s ∧ ¬ s.Registered := by
  refine ⟨_, rfl, fun h => ?_⟩
  have hget := h.1 1 ⟨Nat.one_lt_two, rfl⟩
  cases hget

end StreamTable

end Snova
