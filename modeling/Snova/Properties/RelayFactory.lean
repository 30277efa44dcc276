import Snova.Properties.MuxConnManager
import Snova.Properties.WriterFactory

/-!
# Which session a relay is given

`GetRelayEventWriterFactory` takes the first exit session of a user that has slots.  The sessions of
the server have a connection in one of them, as `Remove` drops a session that has none.  The session
of the local client keeps its empty slots, and if it comes first a relay has no writer, whatever
other exit sessions there are (`relayFactory_iff`).
-/

namespace Snova

variable {κ : Type} [DecidableEq κ] {getType : κ → MuxConnectionType}

namespace SessionNode

/-! ## The statement -/

/-- The user has an exit session with a connection. -/
def HasExitConn (s : SessionNode κ) (user : Bytes) : Prop :=
  ∃ clientId conns, s.connsAt user clientId .exit = some conns ∧ ∃ c, some c ∈ conns

/-- If the user has an exit session with a connection, a relay is given a session of the user with
its client id, and a writer for a connection of it, in whatever order the table is iterated. -/
def GivesWriter (load : κ → ConnLoad) (s : SessionNode κ) (user : Bytes) : Prop :=
  s.HasExitConn user → ∀ table : AList fun _ : UInt64 => MuxSession κ,
    table.entries.Perm ((s.manager.getUserMuxConn user).sessions .exit).entries →
    ∃ clientId session,
      (s.manager.setSessions user .exit table).getRelayEventWriterFactory user
          = some (clientId, session) ∧
        s.connsAt user clientId .exit = some session.conns ∧
        ∃ i c, session.eventWriter load = some i ∧ session.conns[i]? = some (some c)

/-- The client's session is in the table at this key. -/
def RemoteAt (s : SessionNode κ) (user : Bytes) (clientId : UInt64) (type : MuxConnectionType) :
    Prop :=
  s.remote = some ⟨user, clientId, type, none⟩

/-- The client's session is an exit session of the user whose slots are all empty, and the user has
another exit session with a connection. -/
structure Blocked (s : SessionNode κ) (user : Bytes) : Prop where
  empty : ∃ clientId conns, s.RemoteAt user clientId .exit ∧
    s.connsAt user clientId .exit = some conns ∧ conns ≠ [] ∧ ∀ c ∈ conns, c = none
  other : s.HasExitConn user

/-! ## What the table holds -/

/-- Every session with slots has a connection, but for the client's. -/
def Tidy (s : SessionNode κ) : Prop :=
  ∀ user clientId type conns, s.connsAt user clientId type = some conns →
    conns = [] ∨ (∃ c, some c ∈ conns) ∨ s.RemoteAt user clientId type

omit [DecidableEq κ] in
/-- A session that is put into the table replaces the one at its key. -/
lemma session_insert (m : MuxConnManager κ) (k k' : ConnKey) (session : MuxSession κ) :
    (m.setSessions k.user k.type
        (((m.getUserMuxConn k.user).sessions k.type).insert k.clientId session)).session k'
      = if k = k' then some session.conns else m.session k' := by
  rw [m.session_setSessions k k' fun _ hne => AList.lookup_insert_ne hne, AList.lookup_insert]
  rfl

omit [DecidableEq κ] in
lemma session_getSession (m : MuxConnManager κ) (k k' : ConnKey) :
    (m.getSession k.user k.clientId k.type).1.session k'
      = if k = k' then some ((m.session k').getD []) else m.session k' := by
  refine (session_insert m k k' _).trans ?_
  split
  · next hk =>
      subst hk
      rw [MuxConnManager.session, Option.getD_map]
  · rfl

omit [DecidableEq κ] in
/-- The session at one key is replaced by one that is in order. -/
lemma Tidy.replace {s s' : SessionNode κ} (h : s.Tidy) (k : ConnKey)
    (hother : ∀ k', k' ≠ k → s'.manager.session k' = s.manager.session k')
    (hremote : ∀ k', k' ≠ k → s.RemoteAt k'.user k'.clientId k'.type →
      s'.RemoteAt k'.user k'.clientId k'.type)
    (hself : ∀ conns, s'.manager.session k = some conns →
      conns = [] ∨ (∃ c, some c ∈ conns) ∨ s'.RemoteAt k.user k.clientId k.type) : s'.Tidy := by
  intro user clientId type conns hconns
  by_cases hk : (⟨user, clientId, type⟩ : ConnKey) = k
  · subst hk
    exact hself conns hconns
  · have hold : s.connsAt user clientId type = some conns :=
      (hother ⟨user, clientId, type⟩ hk).symm.trans hconns
    obtain hnil | hsome | hat := h user clientId type conns hold
    · exact .inl hnil
    · exact .inr (.inl hsome)
    · exact .inr (.inr (hremote ⟨user, clientId, type⟩ hk hat))

/-- `Remove` leaves the other connections where they are. -/
lemma mem_removeConn_of_ne {conn c : κ} (hne : c ≠ conn) {conns : List (Option κ)}
    (h : some c ∈ conns) (allEmpty isMatch : Bool) :
    some c ∈ (removeConn conn conns allEmpty isMatch).1 := by
  induction conns generalizing allEmpty isMatch with
  | nil => cases h
  | cons d rest ih =>
      match d with
      | none =>
          obtain heq | hrest := List.mem_cons.mp h
          · cases heq
          · simp only [removeConn, reduceCtorEq, ↓reduceIte, Option.isSome_none,
              Bool.false_eq_true]
            exact List.mem_cons_of_mem _ (ih hrest allEmpty isMatch)
      | some d =>
          by_cases hd : d = conn
          · subst hd
            obtain heq | hrest := List.mem_cons.mp h
            · exact absurd (Option.some.inj heq) hne
            · simp only [removeConn, ↓reduceIte, Option.isSome_none, Bool.false_eq_true]
              exact List.mem_cons_of_mem _ (ih hrest allEmpty true)
          · have hd' : some d ≠ some conn := fun heq => hd (Option.some.inj heq)
            simp only [removeConn, hd', ↓reduceIte, Option.isSome_some]
            cases isMatch with
            | true => exact h
            | false =>
                obtain heq | hrest := List.mem_cons.mp h
                · exact List.mem_cons.mpr (.inl heq)
                · exact List.mem_cons_of_mem _ (ih hrest false false)

/-- What `Remove` does not drop has a connection. -/
lemma exists_mem_of_act_remove {conns conns' : List (Option κ)} {user : Bytes} {clientId : UInt64}
    {conn : κ} (h : (ConnOp.remove user clientId conn).act (some conns) = some conns') :
    ∃ c, some c ∈ conns' := by
  rw [ConnOp.act, Option.bind_some] at h
  have hempty := removeConn_snd conn conns true false
  have hkeep := fun c (hne : c ≠ conn) (hc : some c ∈ conns) =>
    mem_removeConn_of_ne hne hc true false
  rcases hr : removeConn conn conns true false with ⟨left, allEmpty⟩
  rw [hr] at h hempty hkeep
  dsimp only at h hempty hkeep
  split at h
  · cases h
  · next hnot =>
      obtain rfl := Option.some.inj h
      rw [Bool.not_eq_true] at hnot
      rw [hnot, Bool.true_and, eq_comm, List.isEmpty_eq_false_iff_exists_mem] at hempty
      obtain ⟨c, hc⟩ := hempty
      rw [List.mem_filter, List.reduceOption_mem_iff, decide_eq_true_iff] at hc
      exact ⟨c, hkeep c hc.2 hc.1⟩

lemma tidy_step {s s' : SessionNode κ} {op : SessionOp κ} (h : s.Tidy)
    (hstep : step getType s op = some s') : s'.Tidy := by
  cases op with
  | call op =>
      cases op with
      | add user clientId conn =>
          obtain rfl := Option.some.inj hstep
          apply h.replace ⟨user, clientId, getType conn⟩
          · intro k' hk'
            exact (s.manager.session_add getType user clientId conn k').trans
              (if_neg (Ne.symm hk'))
          · exact fun _ _ hat => hat
          · intro conns hconns
            rw [s.manager.session_add getType user clientId conn, ConnOp.key, if_pos rfl,
              ConnOp.act] at hconns
            obtain rfl := Option.some.inj hconns
            exact .inr (.inl ⟨conn, List.mem_of_getElem? (getElem?_addConn_self conn _)⟩)
      | remove user clientId conn =>
          obtain rfl := Option.some.inj hstep
          apply h.replace ⟨user, clientId, getType conn⟩
          · intro k' hk'
            exact (s.manager.session_remove getType user clientId conn k').trans
              (if_neg (Ne.symm hk'))
          · intro k' hk' hat
            have hne : ¬ (k'.user = user ∧ k'.clientId = clientId ∧ k'.type = getType conn) :=
              fun heq => hk' (by rw [ConnKey.mk.injEq]; exact heq)
            rw [RemoteAt] at hat ⊢
            rw [hat, Option.map_some, dropRemote, if_neg fun hcond => hne hcond.2]
          · intro conns hconns
            rw [s.manager.session_remove getType user clientId conn, ConnOp.key, if_pos rfl]
              at hconns
            cases hsession : s.manager.session ⟨user, clientId, getType conn⟩ with
            | none =>
                rw [hsession] at hconns
                cases hconns
            | some old =>
                rw [hsession] at hconns
                exact .inr (.inl (exists_mem_of_act_remove hconns))
  | getSession user clientId type =>
      obtain rfl := Option.some.inj hstep
      apply h.replace ⟨user, clientId, type⟩
      · intro k' hk'
        exact (session_getSession s.manager ⟨user, clientId, type⟩ k').trans (if_neg (Ne.symm hk'))
      · exact fun _ _ hat => hat
      · intro conns hconns
        rw [session_getSession s.manager ⟨user, clientId, type⟩, if_pos rfl] at hconns
        obtain rfl := Option.some.inj hconns
        cases hsession : s.manager.session ⟨user, clientId, type⟩ with
        | none => exact .inl rfl
        | some old => exact h user clientId type old hsession
  | init user clientId type connNum =>
      rw [step] at hstep
      split at hstep
      · cases hstep
      · next hremote =>
          obtain rfl := Option.some.inj hstep
          apply h.replace ⟨user, clientId, type⟩
          · intro k' hk'
            refine (session_insert _ ⟨user, clientId, type⟩ k' _).trans ?_
            rw [if_neg (Ne.symm hk')]
            exact (session_getSession s.manager ⟨user, clientId, type⟩ k').trans
              (if_neg (Ne.symm hk'))
          · intro k' _ hat
            rw [RemoteAt, hremote] at hat
            cases hat
          · exact fun _ _ => .inr (.inr rfl)
  | setConn idx conn =>
      rw [step] at hstep
      split at hstep
      · cases hstep
      · next remote hremote =>
          split at hstep
          · next conns hdetached =>
              obtain rfl := Option.some.inj hstep
              intro user clientId type conns' hconns
              obtain hnil | hsome | hat := h user clientId type conns' hconns
              · exact .inl hnil
              · exact .inr (.inl hsome)
              · rw [RemoteAt, hremote] at hat
                rw [Option.some.inj hat] at hdetached
                cases hdetached
          · next hdetached =>
              obtain rfl := Option.some.inj hstep
              apply h.replace ⟨remote.user, remote.clientId, remote.type⟩
              · intro k' hk'
                exact (session_insert s.manager ⟨remote.user, remote.clientId, remote.type⟩ k'
                  _).trans (if_neg (Ne.symm hk'))
              · exact fun _ _ hat => hat
              · intro conns _
                refine .inr (.inr ?_)
                show s.remote = some ⟨remote.user, remote.clientId, remote.type, none⟩
                rw [hremote, ← hdetached]

lemma tidy_of_exec {s : SessionNode κ} {ops : List (SessionOp κ)}
    (h : exec (step getType) .empty ops = some s) : s.Tidy := by
  have hempty : (empty : SessionNode κ).Tidy := by
    intro user clientId type conns hconns
    cases hconns
  exact exec_invariant (fun _ _ _ htidy hstep => tidy_step htidy hstep) hempty h

/-! ## The scan -/

variable {load : κ → ConnLoad} {s : SessionNode κ} {user : Bytes}

omit [DecidableEq κ] in
/-- The scan of the exit table takes the first session with slots. -/
lemma getRelay_setSessions (m : MuxConnManager κ) (user : Bytes)
    (table : AList fun _ : UInt64 => MuxSession κ) :
    (m.setSessions user .exit table).getRelayEventWriterFactory user =
      (table.entries.find? fun entry => entry.2.conns.length ≠ 0).map
        fun entry => (entry.1, entry.2) := by
  rw [MuxConnManager.getRelayEventWriterFactory, MuxConnManager.setSessions, AList.lookup_insert,
    Option.bind_eq_bind, Option.bind_some]
  dsimp only
  rw [Function.update_self]
  cases table.entries.find? fun entry => entry.2.conns.length ≠ 0 with
  | none => rfl
  | some entry => rfl

omit [DecidableEq κ] in
/-- The entries of the exit table are the exit sessions, in whatever order. -/
lemma mem_entries_iff {table : AList fun _ : UInt64 => MuxSession κ}
    (hperm : table.entries.Perm ((s.manager.getUserMuxConn user).sessions .exit).entries)
    (entry : Sigma fun _ : UInt64 => MuxSession κ) :
    entry ∈ table.entries ↔ s.connsAt user entry.1 .exit = some entry.2.conns := by
  rw [hperm.mem_iff, connsAt, Option.map_eq_some_iff]
  constructor
  · exact fun hmem => ⟨entry.2, AList.mem_lookup_iff.mpr hmem, rfl⟩
  · rintro ⟨session, hlookup, hconns⟩
    have hsession : session = entry.2 := by
      cases session
      cases hconns
      rfl
    subst hsession
    exact AList.mem_lookup_iff.mp hlookup

omit [DecidableEq κ] in
/-- A session with a connection has a writer for one. -/
lemma exists_eventWriter {session : MuxSession κ} (h : ∃ c, some c ∈ session.conns) :
    ∃ i c, session.eventWriter load = some i ∧ session.conns[i]? = some (some c) := by
  cases hwriter : session.eventWriter load with
  | none =>
      obtain ⟨c, hc⟩ := h
      cases (eventWriter_eq_none_iff load session).mp hwriter _ hc
  | some i =>
      obtain ⟨c, hmin⟩ := (eventWriter_eq_some_iff load session i).mp hwriter
      exact ⟨i, c, rfl, hmin.getElem?⟩

omit [DecidableEq κ] in
/-- If the client does not block the scan, the session it takes has a connection. -/
lemma givesWriter_of_not_blocked (h : s.Tidy) (hblocked : ¬ s.Blocked user) :
    s.GivesWriter load user := by
  intro hexit table hperm
  obtain ⟨clientId, conns, hconns, c, hc⟩ := hexit
  have hmem : ⟨clientId, ⟨conns⟩⟩ ∈ table.entries :=
    (mem_entries_iff hperm ⟨clientId, ⟨conns⟩⟩).mpr hconns
  have hfind : (table.entries.find? fun entry => entry.2.conns.length ≠ 0).isSome := by
    rw [List.find?_isSome]
    exact ⟨_, hmem, decide_eq_true (List.length_pos_of_mem hc).ne'⟩
  obtain ⟨entry, hentry⟩ := Option.isSome_iff_exists.mp hfind
  have hat := (mem_entries_iff hperm entry).mp (List.mem_of_find?_eq_some hentry)
  refine ⟨entry.1, entry.2, ?_, hat, ?_⟩
  · rw [getRelay_setSessions, hentry]
    rfl
  · apply exists_eventWriter
    have hne : entry.2.conns ≠ [] := by
      have hlen := List.find?_some hentry
      rwa [decide_eq_true_iff, Ne, List.length_eq_zero_iff] at hlen
    by_contra hnone
    obtain hnil | hsome | hremote := h user entry.1 .exit entry.2.conns hat
    · exact hne hnil
    · exact hnone hsome
    · refine hblocked ⟨⟨entry.1, entry.2.conns, hremote, hat, hne, fun c hc => ?_⟩,
        clientId, conns, hconns, c, hc⟩
      cases c with
      | none => rfl
      | some c => exact absurd ⟨c, hc⟩ hnone

omit [DecidableEq κ] in
/-- A table can be iterated with any of its entries first. -/
lemma exists_table_with_first {table : AList fun _ : UInt64 => MuxSession κ}
    {entry : Sigma fun _ : UInt64 => MuxSession κ} (h : entry ∈ table.entries) :
    ∃ table' : AList fun _ : UInt64 => MuxSession κ,
      table'.entries.Perm table.entries ∧ ∃ rest, table'.entries = entry :: rest := by
  obtain ⟨before, after, heq⟩ := List.append_of_mem h
  have hperm : (entry :: (before ++ after)).Perm table.entries :=
    List.perm_middle.symm.trans (heq ▸ List.Perm.refl _)
  exact ⟨⟨_, (List.perm_nodupKeys hperm).mpr table.nodupKeys⟩, hperm, _, rfl⟩

omit [DecidableEq κ] in
/-- If the client's empty session comes first, there is no writer. -/
lemma not_givesWriter_of_blocked (h : s.Blocked user) : ¬ s.GivesWriter load user := by
  intro hgives
  obtain ⟨clientId, conns, -, hconns, hne, hnone⟩ := h.empty
  have hmem := (mem_entries_iff (List.Perm.refl _) ⟨clientId, ⟨conns⟩⟩).mpr hconns
  obtain ⟨table, hperm, rest, hfirst⟩ := exists_table_with_first hmem
  obtain ⟨clientId', session, hrelay, -, i, c, -, hc⟩ := hgives h.other table hperm
  have hlen : decide (conns.length ≠ 0) = true :=
    decide_eq_true fun hzero => hne (List.length_eq_zero_iff.mp hzero)
  have hfind : table.entries.find? (fun entry => entry.2.conns.length ≠ 0)
      = some ⟨clientId, ⟨conns⟩⟩ := by
    rw [hfirst]
    exact List.find?_cons_of_pos hlen
  rw [getRelay_setSessions, hfind, Option.map_some] at hrelay
  obtain ⟨rfl, rfl⟩ := Prod.mk.inj (Option.some.inj hrelay)
  cases hnone _ (List.mem_of_getElem? hc)

/-- **When a relay is given a writer.**  In every state of a node that is reached by adding and
removing connections of its servers and by filling and clearing the slots of its client's session,
for every user: if one of the exit sessions has a connection, a relay gets a writer for a
connection, with the client id of its session and whatever the order of the table, if and only if
not at the same time the client's session is an exit session of the user with all of its slots
empty. -/
theorem relayFactory_iff (getType : κ → MuxConnectionType) (load : κ → ConnLoad)
    {ops : List (SessionOp κ)} {s : SessionNode κ} (h : exec (step getType) .empty ops = some s)
    (user : Bytes) : s.GivesWriter load user ↔ ¬ s.Blocked user :=
  ⟨fun hgives hblocked => not_givesWriter_of_blocked hblocked hgives,
    givesWriter_of_not_blocked (tidy_of_exec h)⟩

/-- Nothing waits, and nothing has been sent. -/
def noLoad : ConnLoad := ⟨0, false, fun _ => 0⟩

/-- Without a client the sessions of the server are all right. -/
theorem relayFactory_of_server :
    ∃ s, exec (step fun _ : Unit => .exit) .empty [.call (.add [] 2 ())] = some s ∧
      s.GivesWriter (fun _ => noLoad) [] := by
  have hrun : exec (step fun _ : Unit => .exit) .empty [.call (.add [] 2 ())] = some _ := rfl
  refine ⟨_, hrun, (relayFactory_iff _ _ hrun []).mpr fun hblocked => ?_⟩
  obtain ⟨clientId, conns, hremote, -⟩ := hblocked.empty
  cases hremote

/-- The client has two slots and no connection yet, and an exit node connects. -/
theorem client_blocks_exit_session :
    ∃ s, exec (step fun _ : Unit => .exit) .empty
        [.init [] 1 .exit 2, .call (.add [] 2 ())] = some s ∧
      s.HasExitConn [] ∧ ¬ s.GivesWriter (fun _ => noLoad) [] := by
  obtain ⟨s, hrun, hblocked⟩ : ∃ s, exec (step fun _ : Unit => .exit) .empty
      [.init [] 1 .exit 2, .call (.add [] 2 ())] = some s ∧ s.Blocked [] :=
    ⟨_, rfl, ⟨1, [none, none], rfl, rfl, by decide, by decide⟩,
      2, [some ()], rfl, (), List.mem_cons_self⟩
  exact ⟨s, hrun, hblocked.other, not_givesWriter_of_blocked hblocked⟩

end SessionNode

end Snova
