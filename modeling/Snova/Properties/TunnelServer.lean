import Snova.Model.TunnelServer

/-!
# Tunnels stay open

A tunnel id that a session was answered with should name a listening server as long as the session
lives.  A second request for the same tunnel gets the id of the server that is there, and nothing
counts how many sessions hold it, so the session that goes first closes it for the others
(`shared_tunnel_closed`).  That is the only way, up to the 32 bits of `close_tunnel_server`: where
no request is granted a tunnel that another live session holds, tunnels stay open
(`tunnels_stay_open`).
-/

namespace Snova.TunnelNode

variable {s s' : TunnelNode}

/-- The session is alive. -/
def Live (s : TunnelNode) (session : ℕ) : Prop :=
  session < s.created ∧ s.destroyed session = false

/-- What a client was promised: the tunnels of its session listen. -/
def Open (s : TunnelNode) : Prop :=
  ∀ session, s.Live session → ∀ t ∈ s.granted session, s.tunnelServers t ≠ none

/-- No request is granted a tunnel that another live session holds, and the ids fit 32 bits. -/
def Unshared (s : TunnelNode) : TunnelAction → Prop
  | .request client event =>
      ∀ id server, s.existServer (listenAddr event) = some (id, server) →
        server.tunnelAddr = tunnelAddr event →
        ∀ session, s.Live session → s.sessions.lookup client ≠ some session →
          id ∉ s.granted session
  | .resume _ ok => ok = true → s.idSeed < 2 ^ 32
  | _ => True

/-- The invariant. -/
structure Exclusive (s : TunnelNode) : Prop where
  tunnels_open : s.Open
  disjoint : ∀ a b, s.Live a → s.Live b → a ≠ b → ∀ t ∈ s.granted a, t ∉ s.granted b
  seed : s.idSeed ≤ 2 ^ 32
  granted_lt : ∀ session, ∀ t ∈ s.granted session, t < s.idSeed
  servers_lt : ∀ id, s.tunnelServers id ≠ none → id < s.idSeed
  unborn : ∀ session, s.created ≤ session → s.granted session = []
  sessions_known : ∀ p ∈ s.sessions, p.2 < s.created
  starts_known : ∀ start ∈ s.starts, ∀ session, start.session = some session → session < s.created

/-! ## Steps -/

lemma init_exclusive : init.Exclusive where
  tunnels_open := fun _ h => absurd h.1 (Nat.not_lt_zero _)
  disjoint := fun _ _ h => absurd h.1 (Nat.not_lt_zero _)
  seed := by decide
  granted_lt := fun _ _ h => nomatch h
  servers_lt := fun _ h => absurd rfl h
  unborn := fun _ _ => rfl
  sessions_known := fun _ h => nomatch h
  starts_known := fun _ h => nomatch h

lemma lookup_mem {client : Bytes × UInt64} {session : ℕ} {l : List ((Bytes × UInt64) × ℕ)}
    (h : l.lookup client = some session) : (client, session) ∈ l := by
  obtain ⟨l₁, l₂, rfl, -⟩ := List.lookup_eq_some_iff.mp h
  exact List.mem_append_right _ List.mem_cons_self

/-- A new session holds nothing. -/
lemma Exclusive.getSession (h : s.Exclusive) (client : Bytes × UInt64) :
    (s.getSession client).1.Exclusive ∧
      (s.getSession client).2 < (s.getSession client).1.created := by
  rw [TunnelNode.getSession]
  split
  · next session hlookup => exact ⟨h, h.sessions_known _ (lookup_mem hlookup)⟩
  · refine ⟨?_, Nat.lt_succ_self _⟩
    have hold : ∀ session, s.granted session ≠ [] → session < s.created := by
      intro session hne
      by_contra hge
      exact hne (h.unborn session (Nat.le_of_not_lt hge))
    have hlive : ∀ session t, t ∈ s.granted session →
        (s.destroyed session = false → s.Live session) := by
      intro session t ht hd
      exact ⟨hold session (List.ne_nil_of_mem ht), hd⟩
    refine ⟨?_, ?_, h.seed, h.granted_lt, h.servers_lt, ?_, ?_, ?_⟩
    · intro session hs t ht
      exact h.tunnels_open session (hlive session t ht hs.2) t ht
    · intro a b ha hb hne t ht htb
      exact h.disjoint a b (hlive a t ht ha.2) (hlive b t htb hb.2) hne t ht htb
    · intro session hs
      exact h.unborn session (Nat.le_of_succ_le hs)
    · intro p hp
      rcases List.mem_cons.mp hp with rfl | hp
      · exact Nat.lt_succ_self _
      · exact (h.sessions_known p hp).trans (Nat.lt_succ_self _)
    · intro start hstart session hs
      exact (h.starts_known start hstart session hs).trans (Nat.lt_succ_self _)

/-- A tunnel that listens and that no other live session holds is granted. -/
lemma Exclusive.grant (h : s.Exclusive) {session : Option ℕ} {id : ℕ}
    (hknown : ∀ k, session = some k → k < s.created) (hserver : s.tunnelServers id ≠ none)
    (hother : ∀ k, s.Live k → session ≠ some k → session ≠ none → id ∉ s.granted k) :
    (s.grant session id).Exclusive := by
  cases session with
  | none => exact h
  | some session =>
      have hmem : ∀ k t, t ∈ Function.update s.granted session (s.granted session ++ [id]) k →
          t ∈ s.granted k ∨ k = session ∧ t = id := by
        intro k t ht
        by_cases hk : k = session
        · subst hk
          rw [Function.update_self] at ht
          exact (List.mem_append.mp ht).imp_right fun ht => ⟨rfl, List.mem_singleton.mp ht⟩
        · rw [Function.update_of_ne hk] at ht
          exact .inl ht
      refine ⟨?_, ?_, h.seed, ?_, h.servers_lt, ?_, h.sessions_known, h.starts_known⟩
      · intro k hk t ht
        rcases hmem k t ht with ht | ⟨-, rfl⟩
        · exact h.tunnels_open k hk t ht
        · exact hserver
      · intro a b ha hb hne t ht htb
        rcases hmem a t ht with hta | ⟨rfl, rfl⟩
        · rcases hmem b t htb with htb | ⟨rfl, rfl⟩
          · exact h.disjoint a b ha hb hne t hta htb
          · exact hother a ha (fun heq => hne (Option.some.inj heq).symm) nofun hta
        · rcases hmem b t htb with htb | ⟨rfl, -⟩
          · exact hother b hb (fun heq => hne (Option.some.inj heq)) nofun htb
          · exact hne rfl
      · intro k t ht
        rcases hmem k t ht with ht | ⟨-, rfl⟩
        · exact h.granted_lt k t ht
        · exact h.servers_lt t hserver
      · intro k hk
        have hne : k ≠ session := by
          rintro rfl
          exact absurd (hknown k rfl) (Nat.not_lt.mpr hk)
        simp only [TunnelNode.grant, Function.update_of_ne hne]
        exact h.unborn k hk

/-- Closing servers: nothing else changes, and the servers that are not named stay. -/
lemma foldl_close_spec (ids : List ℕ) (hids : ∀ id ∈ ids, id < 2 ^ 32) (s : TunnelNode) :
    ∃ servers addrs, ids.foldl closeTunnelServer s =
        { s with tunnelServers := servers, addr2ids := addrs } ∧
      (∀ t, t ∉ ids → servers t = s.tunnelServers t) ∧
      ∀ t, servers t ≠ none → s.tunnelServers t ≠ none := by
  induction ids generalizing s with
  | nil => exact ⟨s.tunnelServers, s.addr2ids, rfl, fun _ _ => rfl, fun _ h => h⟩
  | cons id ids ih =>
      have hrest := fun x hx => hids x (List.mem_cons_of_mem _ hx)
      have hmod : id % 2 ^ 32 = id := Nat.mod_eq_of_lt (hids id List.mem_cons_self)
      rw [List.foldl_cons, closeTunnelServer]
      simp only [hmod]
      split
      · obtain ⟨servers, addrs, heq, hstay, hless⟩ := ih hrest s
        exact ⟨servers, addrs, heq, fun t ht => hstay t (List.not_mem_of_not_mem_cons ht), hless⟩
      · next server _ =>
          obtain ⟨servers, addrs, heq, hstay, hless⟩ := ih hrest
            { s with
              tunnelServers := Function.update s.tunnelServers id none
              addr2ids := Function.update s.addr2ids server.addr none }
          refine ⟨servers, addrs, heq, ?_, ?_⟩
          · intro t ht
            rw [hstay t (List.not_mem_of_not_mem_cons ht)]
            exact Function.update_of_ne (List.ne_of_not_mem_cons ht) _ _
          · intro t ht
            have hsome := hless t ht
            by_cases hid : t = id
            · subst hid
              simp at hsome
            · simpa only [Function.update_of_ne hid] using hsome

/-- A session is destroyed: what it held is closed, and no other live session held it. -/
lemma Exclusive.destroySession (h : s.Exclusive) {session : ℕ} (hlive : s.Live session) :
    (s.destroySession session).Exclusive := by
  have hids : ∀ id ∈ s.granted session, id < 2 ^ 32 :=
    fun id hid => (h.granted_lt session id hid).trans_le h.seed
  obtain ⟨servers, addrs, heq, hstay, hless⟩ := foldl_close_spec (s.granted session) hids
    { s with destroyed := Function.update s.destroyed session true }
  have hother : ∀ k, k < s.created ∧ Function.update s.destroyed session true k = false →
      s.Live k ∧ k ≠ session := by
    intro k hk
    by_cases hks : k = session
    · subst hks
      simp at hk
    · rw [Function.update_of_ne hks] at hk
      exact ⟨hk, hks⟩
  rw [TunnelNode.destroySession, heq]
  refine ⟨?_, ?_, h.seed, h.granted_lt, ?_, h.unborn, h.sessions_known, h.starts_known⟩
  · intro k hk t ht
    obtain ⟨hk', hne⟩ := hother k hk
    have hkept := hstay t (h.disjoint k session hk' hlive hne t ht)
    exact fun hnone => h.tunnels_open k hk' t ht (hkept.symm.trans hnone)
  · intro a b ha hb hne
    exact h.disjoint a b (hother a ha).1 (hother b hb).1 hne
  · intro id hid
    exact h.servers_lt id (hless id hid)

/-- A new server listens, under an id that no session holds. -/
lemma Exclusive.listen (h : s.Exclusive) {start : TunnelStart} (hseed : s.idSeed < 2 ^ 32)
    (hknown : ∀ k, start.session = some k → k < s.created) : (s.listen start).Exclusive := by
  have hnew : ∀ k, s.idSeed ∉ s.granted k := fun k hk => (h.granted_lt k _ hk).ne rfl
  have hsucc : (s.idSeed + 1) % 2 ^ 64 = s.idSeed + 1 := Nat.mod_eq_of_lt (by omega)
  have hadded : { s with
      idSeed := (s.idSeed + 1) % 2 ^ 64
      tunnelServers :=
        Function.update s.tunnelServers s.idSeed (some ⟨start.serverAddr, start.dstAddr⟩)
      addr2ids := Function.update s.addr2ids start.serverAddr (some s.idSeed) }.Exclusive := by
    rw [hsucc]
    refine ⟨?_, h.disjoint, hseed, ?_, ?_, h.unborn, h.sessions_known, h.starts_known⟩
    · intro k hk t ht
      have hne : t ≠ s.idSeed := by
        rintro rfl
        exact hnew k ht
      simp only [Function.update_of_ne hne]
      exact h.tunnels_open k hk t ht
    · intro k t ht
      exact (h.granted_lt k t ht).trans (Nat.lt_succ_self _)
    · intro id hid
      by_cases hne : id = s.idSeed
      · rw [hne]
        exact Nat.lt_succ_self _
      · simp only [Function.update_of_ne hne] at hid
        exact (h.servers_lt id hid).trans (Nat.lt_succ_self _)
  rw [TunnelNode.listen]
  refine hadded.grant hknown ?_ (fun k _ _ _ => hnew k)
  simp

lemma existServer_some {serverAddr : Bytes} {id : ℕ} {server : TunnelServer}
    (h : s.existServer serverAddr = some (id, server)) : s.tunnelServers id = some server := by
  simp only [existServer, Option.bind_eq_bind, Option.bind_eq_some_iff, Option.some.injEq,
    Prod.mk.injEq] at h
  obtain ⟨id', -, server', hserver, rfl, rfl⟩ := h
  exact hserver

lemma Exclusive.startTunnelServer (h : s.Exclusive) {session : Option ℕ}
    {serverAddr dstAddr : Bytes} (hknown : ∀ k, session = some k → k < s.created)
    (hother : ∀ id server, s.existServer serverAddr = some (id, server) →
      server.tunnelAddr = dstAddr →
      ∀ k, s.Live k → session ≠ some k → session ≠ none → id ∉ s.granted k) :
    (s.startTunnelServer session serverAddr dstAddr).Exclusive := by
  rw [TunnelNode.startTunnelServer]
  split
  · next id server hexist =>
      split
      · next hdst =>
          refine h.grant hknown ?_ (hother id server hexist hdst)
          rw [existServer_some hexist]
          nofun
      · exact h
  · refine ⟨h.tunnels_open, h.disjoint, h.seed, h.granted_lt, h.servers_lt, h.unborn,
      h.sessions_known, ?_⟩
    intro start hstart k hk
    rcases List.mem_append.mp hstart with hstart | hstart
    · exact h.starts_known start hstart k hk
    · rw [List.mem_singleton.mp hstart] at hk
      exact hknown k hk

/-- What `GetSession` leaves as it was. -/
lemma getSession_spec (s : TunnelNode) (client : Bytes × UInt64) :
    (s.getSession client).1.granted = s.granted ∧
      (s.getSession client).1.tunnelServers = s.tunnelServers ∧
      (s.getSession client).1.addr2ids = s.addr2ids ∧
      (s.getSession client).1.destroyed = s.destroyed := by
  rw [getSession]
  split <;> exact ⟨rfl, rfl, rfl, rfl⟩

lemma Exclusive.request (h : s.Exclusive) {client : Bytes × UInt64} {event : TunnelOpenRequest}
    (hun : s.Unshared (.request client event)) :
    ((s.getSession client).1.startTunnelServer (some (s.getSession client).2) (listenAddr event)
      (tunnelAddr event)).Exclusive := by
  obtain ⟨hex, hlt⟩ := h.getSession client
  obtain ⟨hgranted, hservers, haddrs, hdestroyed⟩ := s.getSession_spec client
  refine hex.startTunnelServer (fun k hk => Option.some.inj hk ▸ hlt) ?_
  intro id server hexist hdst k hk hne _
  rw [hgranted]
  have hexist' : s.existServer (listenAddr event) = some (id, server) := by
    rw [existServer, haddrs, hservers] at hexist
    exact hexist
  by_cases hold : k < s.created
  · refine hun id server hexist' hdst k ⟨hold, hdestroyed ▸ hk.2⟩ ?_
    intro hlookup
    rw [TunnelNode.getSession, hlookup] at hne
    exact hne rfl
  · rw [h.unborn k (Nat.le_of_not_lt hold)]
    exact List.not_mem_nil

lemma step_exclusive {a : TunnelAction} (h : s.Exclusive) (hun : s.Unshared a)
    (hstep : s.step a = some s') : s'.Exclusive := by
  cases a with
  | request client event =>
      obtain rfl := Option.some.inj hstep
      exact h.request hun
  | startLocal listenAddr dstAddr =>
      obtain rfl := Option.some.inj hstep
      exact h.startTunnelServer nofun (fun _ _ _ _ _ _ _ hnone => absurd rfl hnone)
  | resume i ok =>
      simp only [step] at hstep
      split at hstep
      · next start hstart =>
          obtain rfl := Option.some.inj hstep
          have herase : { s with starts := s.starts.eraseIdx i }.Exclusive :=
            ⟨h.tunnels_open, h.disjoint, h.seed, h.granted_lt, h.servers_lt, h.unborn,
              h.sessions_known,
              fun st hst => h.starts_known st (List.mem_of_mem_eraseIdx hst)⟩
          split
          · next hok =>
              exact herase.listen (hun hok) (h.starts_known start (List.mem_of_getElem? hstart))
          · exact herase
      · cases hstep
  | add client =>
      obtain rfl := Option.some.inj hstep
      exact (h.getSession client).1
  | remove client =>
      obtain rfl := Option.some.inj hstep
      exact ⟨h.tunnels_open, h.disjoint, h.seed, h.granted_lt, h.servers_lt, h.unborn,
        fun p hp => h.sessions_known p (List.mem_of_mem_filter hp), h.starts_known⟩
  | destroy session =>
      simp only [step] at hstep
      split at hstep
      · next hreleased =>
          obtain rfl := Option.some.inj hstep
          exact h.destroySession ⟨hreleased.1, hreleased.2.1⟩
      · cases hstep

/-- **Tunnels stay open while no tunnel is shared.**  In every run of requests, connections and
destructions of sessions in which no request is granted a tunnel that another live session holds
and no id needs more than 32 bits: every tunnel a live session was answered with listens. -/
theorem tunnels_stay_open (as : List TunnelAction) (s : TunnelNode)
    (hun : Along step Unshared init as) (h : exec step init as = some s) : s.Open :=
  (exec_invariant_along (fun _ _ _ hs hC hstep => step_exclusive hs hC hstep) init_exclusive hun
    h).tunnels_open

/-- A request for a tunnel from port 8080 to port 80 of the client's host. -/
def tunnelRequest : TunnelOpenRequest := { localPort := 80, remotePort := 8080 }

/-- A session opens a tunnel and asks for it again. -/
theorem tunnels_stay_open_one_session :
    ∃ s, exec step init [.request ([117], 1) tunnelRequest, .resume 0 true,
        .request ([117], 1) tunnelRequest] = some s ∧ s.granted 0 = [1, 1] ∧ s.Open := by
  have hun : Along step Unshared init [.request ([117], 1) tunnelRequest, .resume 0 true,
      .request ([117], 1) tunnelRequest] := by
    refine ⟨fun _ _ hexist => (nomatch hexist), fun s hs => ?_⟩
    obtain rfl := Option.some.inj hs
    refine ⟨fun _ => by decide, fun s hs => ?_⟩
    obtain rfl := Option.some.inj hs
    refine ⟨?_, fun _ _ => trivial⟩
    intro id server _ _ session hlive hne
    obtain rfl : session = 0 := Nat.lt_one_iff.mp hlive.1
    exact absurd rfl hne
  exact ⟨_, rfl, rfl, tunnels_stay_open _ _ hun rfl⟩

/-- An exit node reconnects with a new client id and asks for its tunnel again; then its old
session is destroyed, and with it the tunnel of the new one. -/
theorem shared_tunnel_closed :
    ∃ s, exec step init [.request ([117], 1) tunnelRequest, .resume 0 true,
        .request ([117], 2) tunnelRequest, .remove ([117], 1), .destroy 0] = some s ∧
      s.Live 1 ∧ s.granted 1 = [1] ∧ s.tunnelServers 1 = none ∧ ¬ s.Open := by
  have hclosed : ∃ s, exec step init [.request ([117], 1) tunnelRequest, .resume 0 true,
      .request ([117], 2) tunnelRequest, .remove ([117], 1), .destroy 0] = some s ∧
      s.Live 1 ∧ s.granted 1 = [1] ∧ s.tunnelServers 1 = none :=
    ⟨_, rfl, ⟨(by decide : 1 < 2), rfl⟩, rfl, rfl⟩
  obtain ⟨s, hs, hlive, hgranted, hnone⟩ := hclosed
  refine ⟨s, hs, hlive, hgranted, hnone, ?_⟩
  intro hopen
  exact hopen 1 hlive 1 (by rw [hgranted]; exact List.mem_singleton_self _) hnone

end Snova.TunnelNode
