import Snova.Model.MuxConnManager
import Mathlib.Data.List.ReduceOption

/-!
# What the table of connections holds

A key of the table is a user, a client id and a connection type.  What a call does to one key
depends on nothing but the connections there (`session_perform`), so a sequence of calls is
followed key by key: the connections of a session are those added under its key and not removed
since (`Live`), an empty session is not kept, and a connection keeps its slot.
-/

namespace Snova

/-! ## Slots -/

section Slots

variable {κ : Type}

lemma getElem?_addConn_self (conn : κ) (l : List (Option κ)) :
    (addConn conn l).1[(addConn conn l).2]? = some (some conn) := by
  induction l with
  | nil => rfl
  | cons c rest ih =>
      match c with
      | none => rfl
      | some c => simpa [addConn] using ih

/-- Adding a connection moves no other. -/
lemma getElem?_addConn_of_some {conn c : κ} {l : List (Option κ)} {i : ℕ}
    (h : l[i]? = some (some c)) : (addConn conn l).1[i]? = some (some c) := by
  induction l generalizing i with
  | nil => simp at h
  | cons d rest ih =>
      match d, i with
      | none, 0 => simp at h
      | none, i + 1 => simpa [addConn] using h
      | some d, 0 => simpa [addConn] using h
      | some d, i + 1 =>
          rw [List.getElem?_cons_succ] at h
          simpa [addConn] using ih h

lemma addConn_snd_le (conn : κ) (l : List (Option κ)) : (addConn conn l).2 ≤ l.length := by
  induction l with
  | nil => exact Nat.le_refl 0
  | cons c rest ih =>
      match c with
      | none => exact Nat.zero_le _
      | some c => exact Nat.succ_le_succ ih

lemma length_addConn_le (conn : κ) (l : List (Option κ)) :
    (addConn conn l).1.length ≤ l.length + 1 := by
  induction l with
  | nil => exact Nat.le_refl 1
  | cons c rest ih =>
      match c with
      | none => exact Nat.le_succ _
      | some c => exact Nat.succ_le_succ ih

lemma reduceOption_addConn_perm (conn : κ) (l : List (Option κ)) :
    List.Perm (addConn conn l).1.reduceOption (conn :: l.reduceOption) := by
  induction l with
  | nil => exact List.Perm.refl _
  | cons c rest ih =>
      match c with
      | none => exact List.Perm.refl _
      | some c =>
          rw [addConn, List.reduceOption_cons_of_some, List.reduceOption_cons_of_some]
          exact (ih.cons c).trans (List.Perm.swap conn c _)

variable [DecidableEq κ]

/-- A slot after a connection has been removed. -/
def clearSlot (conn : κ) (c : Option κ) : Option κ := if c = some conn then none else c

@[simp] lemma clearSlot_self (conn : κ) : clearSlot conn (some conn) = none := if_pos rfl

@[simp] lemma clearSlot_none (conn : κ) : clearSlot conn none = none := by simp [clearSlot]

lemma clearSlot_of_ne {conn c : κ} (h : c ≠ conn) : clearSlot conn (some c) = some c := by
  simp [clearSlot, h]

lemma map_clearSlot_of_notMem {conn : κ} {l : List (Option κ)} (h : some conn ∉ l) :
    l.map (clearSlot conn) = l := by
  have hfix : ∀ c ∈ l, clearSlot conn c = id c := by
    intro c hc
    have hne : c ≠ some conn := by
      rintro rfl
      exact h hc
    rw [clearSlot, if_neg hne, id_eq]
  rw [List.map_congr_left hfix, List.map_id]

lemma reduceOption_map_clearSlot (conn : κ) (l : List (Option κ)) :
    (l.map (clearSlot conn)).reduceOption = l.reduceOption.filter (· ≠ conn) := by
  induction l with
  | nil => rfl
  | cons c rest ih =>
      match c with
      | none => simpa using ih
      | some c =>
          by_cases hc : c = conn
          · subst hc
            simpa [List.reduceOption_cons_of_none] using ih
          · simpa [clearSlot_of_ne hc, hc] using ih

/-- The loop of `Remove` clears the slot of the connection, wherever it stops. -/
lemma removeConn_fst {conn : κ} {l : List (Option κ)} (allEmpty : Bool) {isMatch : Bool}
    (hl : l.reduceOption.Nodup) (hmatch : isMatch = true → some conn ∉ l) :
    (removeConn conn l allEmpty isMatch).1 = l.map (clearSlot conn) := by
  induction l generalizing allEmpty isMatch with
  | nil => rfl
  | cons c rest ih =>
      match c with
      | none =>
          rw [List.reduceOption_cons_of_none] at hl
          simp only [removeConn, reduceCtorEq, ↓reduceIte, Option.isSome_none, Bool.false_eq_true,
            List.map_cons, clearSlot_none]
          rw [ih allEmpty hl (fun hm hc => hmatch hm (List.mem_cons_of_mem _ hc))]
      | some c =>
          rw [List.reduceOption_cons_of_some, List.nodup_cons] at hl
          by_cases hc : c = conn
          · subst hc
            have hrest : some c ∉ rest := fun h => hl.1 (List.reduceOption_mem_iff.mpr h)
            simp only [removeConn, ↓reduceIte, Option.isSome_none, Bool.false_eq_true,
              List.map_cons, clearSlot_self]
            rw [ih allEmpty hl.2 (fun _ => hrest)]
          · have hne : some c ≠ some conn := fun h => hc (Option.some.inj h)
            simp only [removeConn, hne, ↓reduceIte, Option.isSome_some, List.map_cons,
              clearSlot_of_ne hc]
            cases isMatch with
            | true =>
                have hrest : some conn ∉ rest := fun h => hmatch rfl (List.mem_cons_of_mem _ h)
                rw [if_pos rfl, map_clearSlot_of_notMem hrest]
            | false =>
                rw [if_neg Bool.false_ne_true, ih false hl.2 (fun h => absurd h Bool.false_ne_true)]

/-- `all_empty` is right although the loop stops early. -/
lemma removeConn_snd (conn : κ) (l : List (Option κ)) (allEmpty isMatch : Bool) :
    (removeConn conn l allEmpty isMatch).2
      = (allEmpty && (l.reduceOption.filter (· ≠ conn)).isEmpty) := by
  induction l generalizing allEmpty isMatch with
  | nil => simp [removeConn]
  | cons c rest ih =>
      match c with
      | none => simpa [removeConn] using ih allEmpty isMatch
      | some c =>
          by_cases hc : c = conn
          · subst hc
            simpa [removeConn] using ih allEmpty true
          · cases isMatch with
            | true => simp [removeConn, hc]
            | false =>
                have hrest := ih false false
                rw [Bool.false_and] at hrest
                simp [removeConn, hc, hrest]

end Slots

/-! ## One key of the table -/

/-- A key of the table. -/
structure ConnKey where
  user : Bytes
  clientId : UInt64
  type : MuxConnectionType
  deriving DecidableEq

namespace ConnOp

variable {κ : Type} (getType : κ → MuxConnectionType)

/-- The key a call is about. -/
def key : ConnOp κ → ConnKey
  | .add user clientId conn => ⟨user, clientId, getType conn⟩
  | .remove user clientId conn => ⟨user, clientId, getType conn⟩

/-- The connection a call adds. -/
def added : ConnOp κ → Option κ
  | .add _ _ conn => some conn
  | .remove _ _ _ => none

/-- What a call does to the connections of its key. -/
def act [DecidableEq κ] (op : ConnOp κ) (session : Option (List (Option κ))) :
    Option (List (Option κ)) :=
  match op with
  | .add _ _ conn => some (addConn conn (session.getD [])).1
  | .remove _ _ conn => session.bind fun conns =>
      let (conns', allEmpty) := removeConn conn conns true false
      if allEmpty then none else some conns'

end ConnOp

namespace MuxConnManager

variable {κ : Type}

/-- The connections of the session at a key, if there is a session. -/
def session (m : MuxConnManager κ) (k : ConnKey) : Option (List (Option κ)) :=
  (((m.getUserMuxConn k.user).sessions k.type).lookup k.clientId).map MuxSession.conns

lemma sessions_setSessions (m : MuxConnManager κ) (user user' : Bytes)
    (type type' : MuxConnectionType) (table : AList fun _ : UInt64 => MuxSession κ) :
    ((m.setSessions user type table).getUserMuxConn user').sessions type'
      = if user' = user ∧ type' = type then table
        else (m.getUserMuxConn user').sessions type' := by
  by_cases huser : user' = user
  · subst huser
    simp only [getUserMuxConn, setSessions, AList.lookup_insert, Option.getD_some, true_and]
    by_cases htype : type' = type
    · subst htype
      rw [Function.update_self, if_pos rfl]
    · rw [Function.update_of_ne htype, if_neg htype]
  · simp only [getUserMuxConn, setSessions, AList.lookup_insert_ne huser, huser, false_and,
      if_false]

/-- Replacing a table by one that differs at one client id changes the session of one key. -/
lemma session_setSessions (m : MuxConnManager κ) (k k' : ConnKey)
    {table : AList fun _ : UInt64 => MuxSession κ}
    (htable : ∀ clientId ≠ k.clientId, table.lookup clientId
      = ((m.getUserMuxConn k.user).sessions k.type).lookup clientId) :
    (m.setSessions k.user k.type table).session k'
      = if k = k' then (table.lookup k.clientId).map MuxSession.conns else m.session k' := by
  rw [session, sessions_setSessions]
  by_cases hk : k = k'
  · subst hk
    rw [if_pos ⟨rfl, rfl⟩, if_pos rfl]
  · rw [if_neg hk]
    by_cases htable' : k'.user = k.user ∧ k'.type = k.type
    · have hclient : k'.clientId ≠ k.clientId := by
        intro hc
        apply hk
        rw [ConnKey.mk.injEq]
        exact ⟨htable'.1.symm, hc.symm, htable'.2.symm⟩
      rw [if_pos htable', htable _ hclient, session, htable'.1, htable'.2]
    · rw [if_neg htable', session]

/-- The table `Remove` leaves differs at the client id of the call only. -/
lemma lookup_erase_or_insert {table : AList fun _ : UInt64 => MuxSession κ} (allEmpty : Bool)
    (session : MuxSession κ) {clientId clientId' : UInt64} (h : clientId' ≠ clientId) :
    (if allEmpty then table.erase clientId else table.insert clientId session).lookup clientId'
      = table.lookup clientId' := by
  cases allEmpty with
  | true => exact AList.lookup_erase_ne h
  | false => exact AList.lookup_insert_ne h

variable [DecidableEq κ] (getType : κ → MuxConnectionType)

lemma session_add (m : MuxConnManager κ) (user : Bytes) (clientId : UInt64) (conn : κ)
    (k : ConnKey) :
    (m.add getType user clientId conn).1.session k
      = if (ConnOp.add user clientId conn).key getType = k
        then (ConnOp.add user clientId conn).act (m.session k) else m.session k := by
  refine (m.session_setSessions ⟨user, clientId, getType conn⟩ k
    (fun _ hne => AList.lookup_insert_ne hne)).trans ?_
  by_cases hk : ConnKey.mk user clientId (getType conn) = k
  · subst hk
    rw [if_pos rfl, ConnOp.key, if_pos rfl, AList.lookup_insert, Option.map_some, ConnOp.act,
      session, Option.getD_map]
  · rw [if_neg hk, ConnOp.key, if_neg hk]

lemma session_remove (m : MuxConnManager κ) (user : Bytes) (clientId : UInt64) (conn : κ)
    (k : ConnKey) :
    (m.remove getType user clientId conn).session k
      = if (ConnOp.remove user clientId conn).key getType = k
        then (ConnOp.remove user clientId conn).act (m.session k) else m.session k := by
  -- where the source returns early, the key has no session and the call does nothing
  have hnone : m.session ⟨user, clientId, getType conn⟩ = none →
      m.session k = if (ConnOp.remove user clientId conn).key getType = k
        then (ConnOp.remove user clientId conn).act (m.session k) else m.session k := by
    intro hs
    by_cases hk : ConnKey.mk user clientId (getType conn) = k
    · subst hk
      rw [ConnOp.key, if_pos rfl, hs]
      rfl
    · rw [ConnOp.key, if_neg hk]
  rw [remove]
  split
  · rename_i huser
    apply hnone
    rw [session, getUserMuxConn, huser]
    rfl
  · rename_i userConn huser
    have hconn : m.getUserMuxConn user = userConn := by
      rw [getUserMuxConn, huser, Option.getD_some]
    subst hconn
    dsimp only
    split
    · rename_i hsession
      apply hnone
      rw [session, hsession, Option.map_none]
    · rename_i session hsession
      refine (m.session_setSessions ⟨user, clientId, getType conn⟩ k
        (fun _ hne => lookup_erase_or_insert _ _ hne)).trans ?_
      by_cases hk : ConnKey.mk user clientId (getType conn) = k
      · subst hk
        rw [if_pos rfl, ConnOp.key, if_pos rfl, MuxConnManager.session, hsession, Option.map_some,
          ConnOp.act, Option.bind_some]
        generalize removeConn conn session.conns true false = r
        match r with
        | (conns, true) => simp
        | (conns, false) => simp
      · rw [if_neg hk, ConnOp.key, if_neg hk]

/-- A call acts on its own key and leaves the others alone. -/
theorem session_perform (m : MuxConnManager κ) (op : ConnOp κ) (k : ConnKey) :
    (m.perform getType op).session k
      = if op.key getType = k then op.act (m.session k) else m.session k := by
  cases op with
  | add user clientId conn => exact session_add getType m user clientId conn k
  | remove user clientId conn => exact session_remove getType m user clientId conn k

lemma performAll_append_singleton (ops : List (ConnOp κ)) (op : ConnOp κ) :
    performAll getType (ops ++ [op]) = (performAll getType ops).perform getType op := by
  rw [performAll, List.foldl_append, List.foldl_cons, List.foldl_nil, performAll]

end MuxConnManager

/-! ## Sequences of calls -/

section Live

variable {κ : Type} (getType : κ → MuxConnectionType)

/-- The connection has been added under the key, and not been removed since. -/
def Live (k : ConnKey) (ops : List (ConnOp κ)) (c : κ) : Prop :=
  getType c = k.type ∧ ∃ before after, ops = before ++ .add k.user k.clientId c :: after ∧
    .remove k.user k.clientId c ∉ after

lemma not_live_nil (k : ConnKey) (c : κ) : ¬ Live getType k [] c := by
  rintro ⟨-, before, after, h, -⟩
  simp at h

lemma live_append_singleton (k : ConnKey) (ops : List (ConnOp κ)) (op : ConnOp κ) (c : κ) :
    Live getType k (ops ++ [op]) c ↔
      (getType c = k.type ∧ op = .add k.user k.clientId c) ∨
        (Live getType k ops c ∧ op ≠ .remove k.user k.clientId c) := by
  constructor
  · rintro ⟨htype, before, after, h, hafter⟩
    rcases List.eq_nil_or_concat after with rfl | ⟨after', last, rfl⟩
    · left
      exact ⟨htype, (List.append_inj' h rfl).2 |> List.singleton_inj.mp⟩
    · right
      have hsplit : ops ++ [op] = (before ++ .add k.user k.clientId c :: after') ++ [last] := by
        simpa using h
      obtain ⟨hops, hlast⟩ := List.append_inj' hsplit rfl
      rw [List.concat_eq_append, List.mem_append, not_or] at hafter
      refine ⟨⟨htype, before, after', hops, hafter.1⟩, ?_⟩
      rw [List.singleton_inj.mp hlast]
      rintro rfl
      exact hafter.2 (List.mem_singleton_self _)
  · rintro (⟨htype, rfl⟩ | ⟨⟨htype, before, after, rfl, hafter⟩, hop⟩)
    · exact ⟨htype, ops, [], rfl, List.not_mem_nil⟩
    · refine ⟨htype, before, after ++ [op], by simp, ?_⟩
      rw [List.mem_append, not_or]
      exact ⟨hafter, fun h => hop (List.mem_singleton.mp h).symm⟩

/-- A live connection is one of those added. -/
lemma Live.mem_added {k : ConnKey} {ops : List (ConnOp κ)} {c : κ} (h : Live getType k ops c) :
    c ∈ ops.filterMap ConnOp.added := by
  obtain ⟨-, before, after, rfl, -⟩ := h
  exact List.mem_filterMap.mpr
    ⟨_, List.mem_append_right _ List.mem_cons_self, rfl⟩

/-- `Remove` clears one slot, and gives up a session that is left without a connection. -/
lemma act_remove_some [DecidableEq κ] {conns : List (Option κ)} (hconns : conns.reduceOption.Nodup)
    (user : Bytes) (clientId : UInt64) (conn : κ) :
    (ConnOp.remove user clientId conn).act (some conns)
      = if (conns.reduceOption.filter (· ≠ conn)).isEmpty then none
        else some (conns.map (clearSlot conn)) := by
  have hfst : (removeConn conn conns true false).1 = conns.map (clearSlot conn) :=
    removeConn_fst true hconns (fun hm => absurd hm Bool.false_ne_true)
  simp only [ConnOp.act, Option.bind_some, hfst, removeConn_snd, Bool.true_and]

/-- What the table holds at a key when the connections `live` are there. -/
structure SessionHolds (session : Option (List (Option κ))) (live : κ → Prop) : Prop where
  nodup : (session.getD []).reduceOption.Nodup
  mem_iff : ∀ c, c ∈ (session.getD []).reduceOption ↔ live c
  isSome_iff : session.isSome ↔ ∃ c, live c

namespace SessionHolds

variable {session : Option (List (Option κ))} {live : κ → Prop}

lemma congr {live' : κ → Prop} (h : SessionHolds session live) (hlive : ∀ c, live c ↔ live' c) :
    SessionHolds session live' :=
  ⟨h.nodup, fun c => (h.mem_iff c).trans (hlive c),
    h.isSome_iff.trans (exists_congr hlive)⟩

variable [DecidableEq κ]

lemma add (h : SessionHolds session live) {conn : κ} (hconn : ¬ live conn) (user : Bytes)
    (clientId : UInt64) :
    SessionHolds ((ConnOp.add user clientId conn).act session) fun c => c = conn ∨ live c := by
  have hperm := reduceOption_addConn_perm conn (session.getD [])
  refine ⟨?_, fun c => ?_, ?_⟩
  · apply hperm.nodup_iff.mpr
    exact List.nodup_cons.mpr ⟨fun hc => hconn ((h.mem_iff conn).mp hc), h.nodup⟩
  · rw [← h.mem_iff c, ← List.mem_cons]
    exact hperm.mem_iff
  · exact ⟨fun _ => ⟨conn, Or.inl rfl⟩, fun _ => rfl⟩

lemma remove (h : SessionHolds session live) (conn : κ) (user : Bytes) (clientId : UInt64) :
    SessionHolds ((ConnOp.remove user clientId conn).act session) fun c => live c ∧ c ≠ conn := by
  match session, h with
  | none, h =>
      have hlive : ∀ c, ¬ live c := fun c hc => by simpa using h.isSome_iff.mpr ⟨c, hc⟩
      exact h.congr fun c => ⟨fun hc => absurd hc (hlive c), fun hc => absurd hc.1 (hlive c)⟩
  | some conns, h =>
      have hmem : ∀ c, c ∈ conns.reduceOption.filter (· ≠ conn) ↔ live c ∧ c ≠ conn := by
        intro c
        rw [List.mem_filter, ← h.mem_iff c]
        simp
      have hact := act_remove_some h.nodup user clientId conn
      rw [Option.getD_some] at hact
      rw [hact]
      by_cases hempty : conns.reduceOption.filter (· ≠ conn) = []
      · rw [hempty, List.isEmpty_nil, if_pos rfl]
        rw [hempty] at hmem
        refine ⟨List.nodup_nil, fun c => hmem c, ?_⟩
        simpa using fun c hc => (hmem c).mpr hc
      · rw [if_neg (by simpa using hempty)]
        refine ⟨?_, fun c => ?_, ?_⟩
        · rw [Option.getD_some, reduceOption_map_clearSlot]
          exact h.nodup.filter _
        · rw [Option.getD_some, reduceOption_map_clearSlot]
          exact hmem c
        · obtain ⟨c, hc⟩ := List.exists_mem_of_ne_nil _ hempty
          exact ⟨fun _ => ⟨c, (hmem c).mp hc⟩, fun _ => rfl⟩

/-- A call that does not remove the connection leaves it in its slot. -/
lemma act_slot {conns : List (Option κ)} (hconns : conns.reduceOption.Nodup) {i : ℕ} {c : κ}
    (hi : conns[i]? = some (some c)) {op : ConnOp κ}
    (hop : ∀ user clientId, op ≠ .remove user clientId c) :
    ∃ conns', op.act (some conns) = some conns' ∧ conns'[i]? = some (some c) := by
  cases op with
  | add user clientId conn => exact ⟨_, rfl, getElem?_addConn_of_some hi⟩
  | remove user clientId conn =>
      have hne : c ≠ conn := by
        rintro rfl
        exact hop user clientId rfl
      have hc : c ∈ conns.reduceOption.filter (· ≠ conn) := by
        rw [List.mem_filter, List.reduceOption_mem_iff]
        exact ⟨List.mem_of_getElem? hi, by simpa using hne⟩
      refine ⟨conns.map (clearSlot conn), ?_, ?_⟩
      · rw [act_remove_some hconns, if_neg]
        simpa using List.ne_nil_of_mem hc
      · rw [List.getElem?_map, hi, Option.map_some, clearSlot_of_ne hne]

lemma length_act_le {conns : Option (List (Option κ))} (hconns : (conns.getD []).reduceOption.Nodup)
    (op : ConnOp κ) : ((op.act conns).getD []).length ≤ (conns.getD []).length + 1 := by
  cases op with
  | add user clientId conn => exact length_addConn_le conn (conns.getD [])
  | remove user clientId conn =>
      match conns with
      | none => exact Nat.zero_le _
      | some conns =>
          have hact := act_remove_some hconns user clientId conn
          rw [Option.getD_some] at hact
          rw [hact]
          split
          · exact Nat.zero_le _
          · simp

end SessionHolds

end Live

namespace MuxConnManager

variable {κ : Type} [DecidableEq κ] (getType : κ → MuxConnectionType)

/-- The sessions of the table are the live connections of their keys. -/
lemma session_performAll {ops : List (ConnOp κ)} (hdistinct : (ops.filterMap ConnOp.added).Nodup)
    (k : ConnKey) : SessionHolds ((performAll getType ops).session k) (Live getType k ops) := by
  induction ops using List.reverseRecOn with
  | nil =>
      have hnone : (performAll getType []).session k = none := rfl
      rw [hnone]
      exact ⟨List.nodup_nil, fun c => by simp [not_live_nil], by simp [not_live_nil]⟩
  | append_singleton ops op ih =>
      rw [List.filterMap_append, List.nodup_append] at hdistinct
      have hops := ih hdistinct.1
      rw [performAll_append_singleton, session_perform]
      by_cases hk : op.key getType = k
      · rw [if_pos hk]
        subst hk
        cases op with
        | add user clientId conn =>
            have hconn : ¬ Live getType ⟨user, clientId, getType conn⟩ ops conn := fun hlive =>
              hdistinct.2.2 conn hlive.mem_added conn (by simp [ConnOp.added]) rfl
            refine (hops.add hconn user clientId).congr fun c => ?_
            rw [live_append_singleton]
            constructor
            · rintro (rfl | hc)
              · exact Or.inl ⟨rfl, rfl⟩
              · exact Or.inr ⟨hc, by simp⟩
            · rintro (⟨-, hc⟩ | ⟨hc, -⟩)
              · left
                injection hc with _ _ hc
                exact hc.symm
              · exact Or.inr hc
        | remove user clientId conn =>
            refine (hops.remove conn user clientId).congr fun c => ?_
            rw [live_append_singleton]
            simp [ConnOp.key, eq_comm]
      · rw [if_neg hk]
        refine hops.congr fun c => ?_
        rw [live_append_singleton]
        constructor
        · intro hc
          refine Or.inr ⟨hc, ?_⟩
          rintro rfl
          exact hk (by rw [ConnOp.key, hc.1])
        · rintro (⟨htype, rfl⟩ | ⟨hc, -⟩)
          · exact absurd (by rw [ConnOp.key, htype]) hk
          · exact hc

/-- The slot `Add` gives to a connection. -/
def slot (m : MuxConnManager κ) (k : ConnKey) (conn : κ) : ℕ :=
  (addConn conn ((m.session k).getD [])).2

omit [DecidableEq κ] in
lemma add_snd (m : MuxConnManager κ) (user : Bytes) (clientId : UInt64) (conn : κ) :
    (m.add getType user clientId conn).2
      = UInt32.ofNat (m.slot ⟨user, clientId, getType conn⟩ conn) := by
  rw [slot, session, Option.getD_map]
  rfl

lemma length_session_performAll_le {ops : List (ConnOp κ)}
    (hdistinct : (ops.filterMap ConnOp.added).Nodup) (k : ConnKey) :
    (((performAll getType ops).session k).getD []).length ≤ ops.length := by
  induction ops using List.reverseRecOn with
  | nil => exact Nat.le_refl 0
  | append_singleton ops op ih =>
      rw [List.filterMap_append, List.nodup_append] at hdistinct
      have hops := ih hdistinct.1
      rw [performAll_append_singleton, session_perform, List.length_append, List.length_singleton]
      split
      · have hact := SessionHolds.length_act_le
          (session_performAll getType hdistinct.1 k).nodup op
        omega
      · omega

/-- From its `Add` on, as long as it is not removed, a connection is in the slot it was given. -/
lemma session_slot {before after : List (ConnOp κ)} {user : Bytes} {clientId : UInt64} {c : κ}
    (hdistinct : ((before ++ .add user clientId c :: after).filterMap ConnOp.added).Nodup)
    (hafter : .remove user clientId c ∉ after) :
    ∃ conns,
      (performAll getType (before ++ .add user clientId c :: after)).session
          ⟨user, clientId, getType c⟩ = some conns ∧
        conns[(performAll getType before).slot ⟨user, clientId, getType c⟩ c]?
          = some (some c) := by
  induction after using List.reverseRecOn with
  | nil =>
      refine ⟨_, ?_, getElem?_addConn_self c _⟩
      rw [performAll_append_singleton, session_perform, ConnOp.key, if_pos rfl, ConnOp.act]
  | append_singleton after op ih =>
      rw [List.mem_append, not_or, List.mem_singleton] at hafter
      rw [← List.cons_append, ← List.append_assoc] at hdistinct ⊢
      rw [List.filterMap_append, List.nodup_append] at hdistinct
      obtain ⟨conns, hconns, hslot⟩ := ih hdistinct.1 hafter.1
      have hnodup := (session_performAll getType hdistinct.1 ⟨user, clientId, getType c⟩).nodup
      rw [hconns, Option.getD_some] at hnodup
      rw [performAll_append_singleton, session_perform, hconns]
      split
      · rename_i hkey
        refine SessionHolds.act_slot hnodup hslot ?_
        rintro user' clientId' rfl
        rw [ConnOp.key, ConnKey.mk.injEq] at hkey
        exact hafter.2 (by rw [hkey.1, hkey.2.1])
      · exact ⟨conns, rfl, hslot⟩

/-- **The table is the map it should be.**  After any sequence of calls that adds every connection
once, each session consists of the live connections of its key, each once; a session is there
exactly when it has a live connection; a connection stays in the slot whose number `Add` returned
until it is removed; and a call changes no session but that of its own key. -/
theorem connections_are_live {ops : List (ConnOp κ)}
    (hdistinct : (ops.filterMap ConnOp.added).Nodup) :
    (∀ k, (((performAll getType ops).session k).getD []).reduceOption.Nodup ∧
      ∀ c, some c ∈ ((performAll getType ops).session k).getD [] ↔ Live getType k ops c) ∧
    (∀ k, ((performAll getType ops).session k).isSome ↔ ∃ c, Live getType k ops c) ∧
    (∀ before user clientId c after, ops = before ++ .add user clientId c :: after →
      ∃ i ≤ before.length,
        ((performAll getType before).add getType user clientId c).2 = UInt32.ofNat i ∧
        ∀ between, between <+: after → .remove user clientId c ∉ between →
          ∃ conns,
            (performAll getType (before ++ .add user clientId c :: between)).session
                ⟨user, clientId, getType c⟩ = some conns ∧ conns[i]? = some (some c)) ∧
    (∀ op k, op.key getType ≠ k →
      (performAll getType (ops ++ [op])).session k = (performAll getType ops).session k) := by
  refine ⟨fun k => ?_, fun k => (session_performAll getType hdistinct k).isSome_iff, ?_, ?_⟩
  · have hk := session_performAll getType hdistinct k
    exact ⟨hk.nodup, fun c => List.reduceOption_mem_iff.symm.trans (hk.mem_iff c)⟩
  · rintro before user clientId c after rfl
    have hbefore : (before.filterMap ConnOp.added).Nodup := by
      rw [List.filterMap_append, List.nodup_append] at hdistinct
      exact hdistinct.1
    refine ⟨(performAll getType before).slot ⟨user, clientId, getType c⟩ c, ?_,
      add_snd getType _ user clientId c, ?_⟩
    · exact (addConn_snd_le c _).trans (length_session_performAll_le getType hbefore _)
    · rintro between ⟨rest, rfl⟩ hbetween
      apply session_slot getType _ hbetween
      rw [← List.cons_append, ← List.append_assoc, List.filterMap_append, List.nodup_append]
        at hdistinct
      exact hdistinct.1
  · intro op k hk
    rw [performAll_append_singleton, session_perform, if_neg hk]

/-- Two connections, the first of which is retired and removed twice while the second stays. -/
theorem connections_are_live_retired :
    ∃ ops : List (ConnOp Bool),
      ops = [.add [] 0 true, .add [] 0 false, .remove [] 0 true, .remove [] 0 true] ∧
      ∀ k, (((performAll (fun _ => .entry) ops).session k).getD []).reduceOption.Nodup ∧
        ∀ c, some c ∈ ((performAll (fun _ => .entry) ops).session k).getD [] ↔
          Live (fun _ => .entry) k ops c :=
  ⟨_, rfl, (connections_are_live (fun _ => .entry) (by decide)).1⟩

end MuxConnManager

end Snova
