import Snova.Framework.Decimal
import Snova.Model.TunnelTables

/-!
# The tables of tunnel servers are inverse to each other

Two calls of `start_tunnel_server` for one address can both be past the check for a server that
listens on it already.  What keeps the tables together then is that the second of them cannot bind
its acceptor (`BindExclusive`), so a registration never replaces an entry, and `close_tunnel_server`
removes an entry from both tables.
-/

namespace Snova

/-! ## Addresses -/

/-- The digits of a port are no colons. -/
lemma colon_notMem_digitBytes (n : ℕ) : (58 : UInt8) ∉ digitBytes n := fun h =>
  absurd (isDigitByte_of_mem h) (by decide)

/-- What stands behind the last colon is the port. -/
lemma append_colon_inj {host host' digits digits' : Bytes} (h : (58 : UInt8) ∉ digits)
    (h' : (58 : UInt8) ∉ digits') (heq : host ++ 58 :: digits = host' ++ 58 :: digits') :
    host = host' ∧ digits = digits' := by
  rcases List.append_eq_append_iff.mp heq with ⟨mid, rfl, hmid⟩ | ⟨mid, rfl, hmid⟩
  · match mid with
    | [] =>
        rw [List.nil_append, List.cons.injEq] at hmid
        exact ⟨(List.append_nil host).symm, hmid.2⟩
    | b :: mid =>
        rw [List.cons_append, List.cons.injEq] at hmid
        exact absurd (hmid.2 ▸ List.mem_append_right mid List.mem_cons_self) h
  · match mid with
    | [] =>
        rw [List.nil_append, List.cons.injEq] at hmid
        exact ⟨List.append_nil host', hmid.2.symm⟩
    | b :: mid =>
        rw [List.cons_append, List.cons.injEq] at hmid
        exact absurd (hmid.2 ▸ List.mem_append_right mid List.mem_cons_self) h'

lemma NetAddress.string_injective : Function.Injective NetAddress.string := by
  rintro ⟨host, port⟩ ⟨host', port'⟩ h
  obtain ⟨hhost, hport⟩ := append_colon_inj (colon_notMem_digitBytes port.toNat)
    (colon_notMem_digitBytes port'.toNat) h
  rw [NetAddress.mk.injEq]
  exact ⟨hhost, UInt16.toNat_inj.mp (digitBytes_injective hport)⟩

namespace TunnelTables

/-! ## The model with sessions -/

/-- The same tables in the model that has sessions. -/
def toNode (s : TunnelTables) : TunnelNode :=
  { TunnelNode.init with
    tunnelServers := fun id => (s.servers id).map ListenServer.toTunnelServer
    addr2ids := s.addr2ids
    idSeed := s.idSeed
    starts := s.starts.map fun call => ⟨none, call.listenAddr.string, call.dstAddr.string⟩ }

lemma map_update_servers (servers : ℕ → Option ListenServer) (i : ℕ) (x : Option ListenServer) :
    (fun id => (Function.update servers i x id).map ListenServer.toTunnelServer)
      = Function.update (fun id => (servers id).map ListenServer.toTunnelServer) i
        (x.map ListenServer.toTunnelServer) := by
  funext id
  exact Function.apply_update (fun _ => Option.map ListenServer.toTunnelServer) servers i x id

lemma toNode_closeTunnelServer (s : TunnelTables) (serverId : UInt32) :
    (s.closeTunnelServer serverId).toNode = s.toNode.closeTunnelServer serverId.toNat := by
  have hlt : serverId.toNat % 2 ^ 32 = serverId.toNat := Nat.mod_eq_of_lt serverId.toNat_lt
  rw [closeTunnelServer, TunnelNode.closeTunnelServer, hlt]
  cases hserver : s.servers serverId.toNat with
  | none => simp [toNode, hserver]
  | some server => simp [toNode, hserver, map_update_servers]

lemma toNode_startTunnelServer (s : TunnelTables) (call : StartCall) :
    (s.startTunnelServer call).toNode
      = s.toNode.startTunnelServer none call.listenAddr.string call.dstAddr.string := by
  rw [startTunnelServer, TunnelNode.startTunnelServer, TunnelNode.existServer]
  cases hid : s.addr2ids call.listenAddr.string with
  | none => simp [toNode, hid]
  | some id =>
      cases hserver : s.servers id with
      | none => simp [toNode, hid, hserver]
      | some server =>
          by_cases hdst : server.tunnelAddr = call.dstAddr.string
          · simp [toNode, hid, hserver, hdst, ret, TunnelNode.grant]
          · simp [toNode, hid, hserver, hdst, ret]

lemma toNode_register (s : TunnelTables) (call : StartCall) :
    (s.register call).toNode
      = s.toNode.listen ⟨none, call.listenAddr.string, call.dstAddr.string⟩ := by
  simp [toNode, register, ret, TunnelNode.listen, TunnelNode.grant, newServer, map_update_servers]

/-- Each step is one of the model with sessions, in which local tunnels have none. -/
theorem toNode_step {s s' : TunnelTables} {a : TablesAction} (h : s.step a = some s') :
    match a with
    | .start call =>
        s.toNode.step (.startLocal call.listenAddr call.dstAddr) = some s'.toNode
    | .resume i ec => s.toNode.step (.resume i ec.isNone) = some s'.toNode
    | .close serverId => s'.toNode = s.toNode.closeTunnelServer serverId.toNat := by
  cases a with
  | start call =>
      obtain rfl := Option.some.inj h
      rw [toNode_startTunnelServer]
      rfl
  | resume i ec =>
      rw [step] at h
      split at h
      · rename_i call hcall
        have hstart : s.toNode.starts[i]?
            = some ⟨none, call.listenAddr.string, call.dstAddr.string⟩ := by
          simp [toNode, hcall]
        simp only [TunnelNode.step, hstart]
        cases ec with
        | none =>
            obtain rfl := Option.some.inj h
            rw [toNode_register]
            simp [toNode, List.eraseIdx_map]
        | some value =>
            obtain rfl := Option.some.inj h
            simp [toNode, ret, List.eraseIdx_map]
      · cases h
  | close serverId =>
      obtain rfl := Option.some.inj h
      exact toNode_closeTunnelServer s serverId

/-! ## The invariant -/

/-- `bind` and `listen` fail while the acceptor of another server uses the address. -/
def BindExclusive (s : TunnelTables) : TablesAction → Prop
  | .resume i none => ∀ call, s.starts[i]? = some call →
      ∀ id server, s.servers id = some server → server.addr ≠ call.listenAddr.string
  | _ => True

/-- The tables are inverse to each other. -/
def Inverse (s : TunnelTables) : Prop :=
  ∀ addr id, s.addr2ids addr = some id ↔
    ∃ server, s.servers id = some server ∧ server.addr = addr ∧ server.id = id

/-- A call that has just returned has its server in the table, or has left the tables alone. -/
def ReturnsServer (s s' : TunnelTables) : Prop :=
  ∀ call result, s'.returned = s.returned ++ [⟨call, result⟩] →
    match result with
    | .ok id => ∃ server, s'.servers id = some server ∧ server.id = id ∧
        server.listenAddr = call.listenAddr ∧ server.dstAddr = call.dstAddr
    | .error _ => s'.servers = s.servers ∧ s'.addr2ids = s.addr2ids

structure Invariant (s : TunnelTables) : Prop where
  idSeed_eq : s.idSeed = s.registered.length + 1
  ids : s.registered.map ListenServer.id = List.range' 1 s.registered.length
  registered : ∀ id server, s.servers id = some server →
    server ∈ s.registered ∧ server.id = id ∧ server.addr = server.listenAddr.string ∧
      server.tunnelAddr = server.dstAddr.string
  addr2ids : ∀ id server, s.servers id = some server → s.addr2ids server.addr = some id
  servers : ∀ addr id, s.addr2ids addr = some id →
    ∃ server, s.servers id = some server ∧ server.addr = addr

namespace Invariant

variable {s s' : TunnelTables}

lemma init : Invariant TunnelTables.init where
  idSeed_eq := rfl
  ids := rfl
  registered id server h := by cases h
  addr2ids id server h := by cases h
  servers addr id h := by cases h

lemma inverse (h : s.Invariant) : s.Inverse := by
  intro addr id
  constructor
  · intro haddr
    obtain ⟨server, hserver, hserver'⟩ := h.servers addr id haddr
    exact ⟨server, hserver, hserver', (h.registered id server hserver).2.1⟩
  · rintro ⟨server, hserver, rfl, -⟩
    exact h.addr2ids id server hserver

/-- The next id is not in the table. -/
lemma servers_idSeed (h : s.Invariant) : s.servers s.idSeed = none := by
  rcases hserver : s.servers s.idSeed with _ | server
  · rfl
  · obtain ⟨hmem, hid, -⟩ := h.registered _ server hserver
    have hrange := List.mem_map_of_mem (f := ListenServer.id) hmem
    rw [h.ids, List.mem_range', hid, h.idSeed_eq] at hrange
    obtain ⟨i, hlt, heq⟩ := hrange
    omega

lemma close (h : s.Invariant) (serverId : UInt32) : (s.closeTunnelServer serverId).Invariant := by
  rw [closeTunnelServer]
  split
  · exact h
  · rename_i server hserver
    have haddr := h.addr2ids _ server hserver
    refine ⟨h.idSeed_eq, h.ids, fun id server' hid => ?_, fun id server' hid => ?_,
      fun addr id hid => ?_⟩
    · have hne : id ≠ serverId.toNat := by
        rintro rfl
        simp at hid
      exact h.registered id server' (by simpa [hne] using hid)
    · have hne : id ≠ serverId.toNat := by
        rintro rfl
        simp at hid
      have hold := h.addr2ids id server' (by simpa [hne] using hid)
      have haddr' : server'.addr ≠ server.addr := by
        intro he
        rw [he, haddr] at hold
        exact hne (Option.some.inj hold).symm
      simpa [haddr'] using hold
    · have haddr' : addr ≠ server.addr := by
        rintro rfl
        simp at hid
      obtain ⟨server', hserver', rfl⟩ := h.servers addr id (by simpa [haddr'] using hid)
      have hne : id ≠ serverId.toNat := by
        rintro rfl
        rw [hserver, Option.some_inj] at hserver'
        exact haddr' (by rw [hserver'])
      exact ⟨server', by simpa [hne] using hserver', rfl⟩

/-- A registration is new in both tables. -/
lemma register (h : s.Invariant) {call : StartCall} (hlt : s.registered.length < 2 ^ 32)
    (hbind : ∀ id server, s.servers id = some server → server.addr ≠ call.listenAddr.string) :
    (s.register call).Invariant := by
  have hseed := h.idSeed_eq
  refine ⟨?_, ?_, fun id server hid => ?_, fun id server hid => ?_, fun addr id hid => ?_⟩
  · simp only [TunnelTables.register, ret, List.length_append, List.length_singleton, hseed]
    exact Nat.mod_eq_of_lt (by omega)
  · simp only [TunnelTables.register, ret, List.map_append, List.length_append,
      List.length_singleton, List.range'_append_1.symm, h.ids]
    simp [newServer, hseed, Nat.add_comm]
  · by_cases hne : id = s.idSeed
    · subst hne
      obtain rfl : s.newServer call = server := by
        simpa [TunnelTables.register, ret] using hid
      exact ⟨List.mem_append_right _ (List.mem_singleton_self _), rfl, rfl, rfl⟩
    · have hold := h.registered id server (by simpa [TunnelTables.register, ret, hne] using hid)
      exact ⟨List.mem_append_left _ hold.1, hold.2⟩
  · by_cases hne : id = s.idSeed
    · subst hne
      obtain rfl : s.newServer call = server := by
        simpa [TunnelTables.register, ret] using hid
      simp [TunnelTables.register, ret, newServer]
    · have hserver : s.servers id = some server := by
        simpa [TunnelTables.register, ret, hne] using hid
      have hold := h.addr2ids id server hserver
      simpa [TunnelTables.register, ret, hbind id server hserver] using hold
  · by_cases haddr : addr = call.listenAddr.string
    · subst haddr
      obtain rfl : s.idSeed = id := by simpa [TunnelTables.register, ret] using hid
      exact ⟨s.newServer call, by simp [TunnelTables.register, ret], rfl⟩
    · obtain ⟨server, hserver, haddr'⟩ :=
        h.servers addr id (by simpa [TunnelTables.register, ret, haddr] using hid)
      have hne : id ≠ s.idSeed := by
        rintro rfl
        rw [h.servers_idSeed] at hserver
        cases hserver
      exact ⟨server, by simpa [TunnelTables.register, ret, hne] using hserver, haddr'⟩

/-- What a call returns, and the calls that wait, do not matter to the tables. -/
lemma frame (h : s.Invariant) (starts : List StartCall) (returned : List StartReturn) :
    Invariant { s with starts := starts, returned := returned } :=
  ⟨h.idSeed_eq, h.ids, h.registered, h.addr2ids, h.servers⟩

lemma start (h : s.Invariant) (call : StartCall) : (s.startTunnelServer call).Invariant := by
  rw [startTunnelServer]
  split
  · split
    · exact h.frame _ _
    · exact h.frame _ _
  · exact h.frame _ _

lemma step (h : s.Invariant) {a : TablesAction} (hbind : s.BindExclusive a)
    (hlt : s.registered.length < 2 ^ 32) (hstep : s.step a = some s') : s'.Invariant := by
  cases a with
  | start call =>
      obtain rfl := Option.some.inj hstep
      exact h.start call
  | resume i ec =>
      rw [TunnelTables.step] at hstep
      split at hstep
      · rename_i call hcall
        cases ec with
        | none =>
            obtain rfl := Option.some.inj hstep
            exact (h.frame (s.starts.eraseIdx i) s.returned).register hlt (hbind call hcall)
        | some value =>
            obtain rfl := Option.some.inj hstep
            exact h.frame _ _
      · cases hstep
  | close serverId =>
      obtain rfl := Option.some.inj hstep
      exact h.close serverId

end Invariant

/-! ## Runs -/

variable {s s' : TunnelTables}

/-- A start that does not get as far as `listen` leaves the tables alone. -/
lemma tables_startTunnelServer (s : TunnelTables) (call : StartCall) :
    (s.startTunnelServer call).servers = s.servers ∧
      (s.startTunnelServer call).addr2ids = s.addr2ids ∧
      (s.startTunnelServer call).registered = s.registered := by
  rw [startTunnelServer]
  split
  · split
    · exact ⟨rfl, rfl, rfl⟩
    · exact ⟨rfl, rfl, rfl⟩
  · exact ⟨rfl, rfl, rfl⟩

/-- Registrations are not forgotten. -/
lemma length_registered_le {a : TablesAction} (hstep : s.step a = some s') :
    s.registered.length ≤ s'.registered.length := by
  cases a with
  | start call =>
      obtain rfl := Option.some.inj hstep
      rw [(tables_startTunnelServer s call).2.2]
  | resume i ec =>
      rw [step] at hstep
      split at hstep
      · cases ec with
        | none =>
            obtain rfl := Option.some.inj hstep
            simp [register, ret]
        | some value =>
            obtain rfl := Option.some.inj hstep
            exact le_rfl
      · cases hstep
  | close serverId =>
      obtain rfl := Option.some.inj hstep
      rw [closeTunnelServer]
      split
      · exact le_rfl
      · exact le_rfl

lemma ret_inj {call call' : StartCall} {result result' : Except TunnelErrc ℕ}
    {returned : List StartReturn}
    (h : returned ++ [StartReturn.mk call result] = returned ++ [⟨call', result'⟩]) :
    call = call' ∧ result = result' := by
  have hlast := List.singleton_inj.mp (List.append_cancel_left h)
  rwa [StartReturn.mk.injEq] at hlast

/-- The server of an earlier call is the one asked for. -/
lemma Invariant.returnsServer_start (h : s.Invariant) (call : StartCall) :
    s.ReturnsServer (s.startTunnelServer call) := by
  obtain ⟨hservers, haddrs, -⟩ := tables_startTunnelServer s call
  intro call' result hret
  rw [hservers, haddrs]
  rw [startTunnelServer] at hret
  split at hret
  · rename_i server hserver
    obtain ⟨id, hid, hserver⟩ := Option.bind_eq_some_iff.mp hserver
    split at hret
    · rename_i hdst
      obtain ⟨rfl, rfl⟩ := ret_inj hret
      obtain ⟨-, rfl, haddr, htunnel⟩ := h.registered id server hserver
      obtain ⟨server', hserver', haddr'⟩ := h.servers _ server.id hid
      obtain rfl := Option.some.inj (hserver'.symm.trans hserver)
      exact ⟨server', hserver, rfl, NetAddress.string_injective (haddr.symm.trans haddr'),
        NetAddress.string_injective (htunnel.symm.trans hdst)⟩
    · obtain ⟨rfl, rfl⟩ := ret_inj hret
      exact ⟨rfl, rfl⟩
  · exact absurd hret (by simp)

lemma Invariant.returnsServer (h : s.Invariant) {a : TablesAction} (hstep : s.step a = some s') :
    s.ReturnsServer s' := by
  cases a with
  | start call =>
      obtain rfl := Option.some.inj hstep
      exact h.returnsServer_start call
  | resume i ec =>
      rw [TunnelTables.step] at hstep
      split at hstep
      · rename_i call hcall
        intro call' result hret
        cases ec with
        | none =>
            obtain rfl := Option.some.inj hstep
            obtain ⟨rfl, rfl⟩ := ret_inj hret
            exact ⟨newServer s call, by simp [TunnelTables.register, ret, newServer], rfl, rfl, rfl⟩
        | some value =>
            obtain rfl := Option.some.inj hstep
            obtain ⟨rfl, rfl⟩ := ret_inj hret
            exact ⟨rfl, rfl⟩
      · cases hstep
  | close serverId =>
      obtain rfl := Option.some.inj hstep
      intro call' result hret
      rw [closeTunnelServer] at hret
      split at hret
      · exact absurd hret (by simp)
      · exact absurd hret (by simp)

/-- **The tables of tunnel servers.**  In every run with fewer than 2^32 registrations in which no
acceptor is bound to an address that another one uses, the two tables are inverse to each other
and the ids of all registrations are different; a start that returns success returns the id of a
server that listens on the requested address and forwards to the requested destination, and one
that fails leaves the tables as they are. -/
theorem tunnel_tables_inverse {as : List TablesAction} {s : TunnelTables}
    (hbind : Along step BindExclusive init as) (h : exec step init as = some s)
    (hlt : s.registered.length < 2 ^ 32) :
    s.Inverse ∧ (∀ id server, s.servers id = some server → server.id = id ∧ id < 2 ^ 32) ∧
    (s.registered.map ListenServer.id).Nodup ∧
    (∀ call, (s.startTunnelServer call).servers = s.servers ∧
      (s.startTunnelServer call).addr2ids = s.addr2ids) ∧
    ∀ a s', s.step a = some s' → s.ReturnsServer s' := by
  have hinv : s.registered.length < 2 ^ 32 → s.Invariant := by
    refine exec_invariant_along (I := fun s => s.registered.length < 2 ^ 32 → s.Invariant)
      (fun t a t' ht hb hstep hlt' => ?_) (fun _ => Invariant.init) hbind h
    have hle := length_registered_le hstep
    exact (ht (by omega)).step hb (by omega) hstep
  have hs := hinv hlt
  refine ⟨hs.inverse, fun id server hserver => ?_, ?_, fun call => ?_, fun a s' => hs.returnsServer⟩
  · obtain ⟨hmem, hid, -⟩ := hs.registered id server hserver
    have hrange := List.mem_map_of_mem (f := ListenServer.id) hmem
    rw [hs.ids, List.mem_range'_1, hid] at hrange
    exact ⟨hid, by omega⟩
  · rw [hs.ids]
    exact List.nodup_range'
  · exact ⟨(tables_startTunnelServer s call).1, (tables_startTunnelServer s call).2.1⟩

/-- Two starts for one address race; the second cannot bind.  The tunnel is closed and the address
used again. -/
def racingStarts : List TablesAction :=
  [.start ⟨⟨anyHost, 8080⟩, ⟨[97], 80⟩⟩, .start ⟨⟨anyHost, 8080⟩, ⟨[98], 80⟩⟩, .resume 0 none,
    .resume 0 (some 98), .close 1, .start ⟨⟨anyHost, 8080⟩, ⟨[98], 80⟩⟩, .resume 0 none]

theorem tunnel_tables_inverse_racing :
    ∃ s, exec step init racingStarts = some s ∧
      s.addr2ids (NetAddress.mk anyHost 8080).string = some 2 ∧ s.Inverse := by
  have hbind : Along step BindExclusive init racingStarts := by
    refine .cons trivial rfl (.cons trivial rfl (.cons ?_ rfl (.cons trivial rfl (.cons trivial rfl
      (.cons trivial rfl (.cons ?_ rfl trivial))))))
    · intro call hcall id server hserver
      cases hserver
    · intro call hcall id server hserver
      change Function.update (Function.update (fun _ => none) 1 _) 1 none id = some server
        at hserver
      rw [Function.update_idem] at hserver
      by_cases hid : id = 1
      · simp [hid] at hserver
      · simp [hid] at hserver
  exact ⟨_, rfl, rfl, (tunnel_tables_inverse hbind rfl (by decide)).1⟩

end TunnelTables

end Snova
