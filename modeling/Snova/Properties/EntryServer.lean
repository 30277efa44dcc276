import Snova.Model.EntryServer
import Snova.Model.MuxConnManager
import Snova.Properties.HttpProxy
import Mathlib.Data.List.GetD

/-!
# Connections of an entry server

What `handle_conn` and its handlers hand to a relay: the port a client asked for, the connection
itself with the bytes that have been read, and the user whose exit session carries it.
-/

namespace Snova

/-! ## TLS -/

/-- `parse_sni` fails, or it gives the host that is not relayed. -/
def NoServerName (data : Bytes) : Prop := ∀ host, parseSni data = .ok host → host = excludedHost

/-- A TLS record that is relayed to the server it names. -/
def NamesServer (data : Bytes) : Prop :=
  3 < data.length ∧ byteAt data 0 = 0x16 ∧ 3 ≤ byteAt data 1 ∧ ¬ NoServerName data

lemma exists_of_not_noServerName {data : Bytes} (h : ¬ NoServerName data) :
    ∃ host, parseSni data = .ok host ∧ host ≠ excludedHost := by
  simpa only [NoServerName, not_forall, exists_prop] using h

section Tls

variable (env : EntryEnv) (caller : ConnVars) {data : Bytes} (endpoint : Option TcpEndpoint)
  (unread : List Bytes)

/-- A connection without a server name is given up, and its caller has lost it. -/
lemma handleTlsConnection_of_noServerName (h : NoServerName data) :
    handleTlsConnection env caller data endpoint unread = ⟨false, .movedFrom, none⟩ := by
  rw [handleTlsConnection]
  cases hsni : parseSni data with
  | error rc => rfl
  | ok host =>
      dsimp only
      rw [if_pos (h host hsni)]

/-- The port a connection with a server name is relayed to. -/
lemma handleTlsConnection_of_name (h : ¬ NoServerName data) :
    ∃ call, handleTlsConnection env caller data endpoint unread
        = ⟨true, .movedFrom, some call⟩ ∧
      call.ctx.remotePort = (endpoint.map TcpEndpoint.port).getD 443 ∧
      call.ctx.user = env.user ∧ call.ctx.direct = false := by
  obtain ⟨host, hsni, hhost⟩ := exists_of_not_noServerName h
  rw [handleTlsConnection, hsni]
  dsimp only
  rw [if_neg hhost]
  exact ⟨_, rfl, rfl, rfl, rfl⟩

lemma handleTlsConnection_success_iff :
    (handleTlsConnection env caller data endpoint unread).success = false ↔ NoServerName data := by
  constructor
  · intro hfail
    by_contra hname
    obtain ⟨call, heq, -⟩ := handleTlsConnection_of_name env caller endpoint unread hname
    rw [heq] at hfail
    cases hfail
  · intro hname
    rw [handleTlsConnection_of_noServerName env caller endpoint unread hname]

end Tls

/-! ## The port of a SOCKS5 request -/

section Socks5

variable {env : EntryEnv} {target : Socks5Target}

lemma byteAt_append {data : Bytes} (rest : Bytes) {i : ℕ} (hi : i < data.length) :
    byteAt (data ++ rest) i = byteAt data i := by
  rw [byteAt, byteAt, List.getD_append _ _ _ _ hi]

/-- The port that a request asks for. -/
def requestedPort (request : Bytes) : UInt16 :=
  UInt16.ofNat (shortAt request (request.length - 2))

/-- An accepted request has the port it asks for, and an endpoint with that port unless it names a
domain. -/
lemma socks5Target_spec {buffer : Bytes} {n : ℕ} (h : socks5Target env buffer n = some target) :
    4 ≤ n ∧ target.remotePort = UInt16.ofNat (shortAt buffer (n - 2)) ∧
      target.remoteEndpoint.map TcpEndpoint.port
        = if byteAt buffer 3 = 3 then none else some target.remotePort := by
  rw [socks5Target] at h
  split at h
  · cases h
  rename_i hn
  split at h
  · cases h
  split at h
  · cases h
  refine ⟨Nat.le_of_not_lt hn, ?_⟩
  dsimp only at h
  split at h
  · rename_i htype
    split at h
    · cases h
    · obtain rfl := Option.some.inj h
      exact ⟨rfl, by rw [htype]; rfl⟩
  · rename_i htype
    split at h
    · cases h
    · obtain rfl := Option.some.inj h
      exact ⟨rfl, by rw [htype]; rfl⟩
  · rename_i htype
    split at h
    · cases h
    · obtain rfl := Option.some.inj h
      exact ⟨rfl, by rw [htype]; rfl⟩
  · cases h

/-- What is behind the request in the buffer does not matter for its port. -/
lemma socks5Target_request {request rest : Bytes}
    (h : socks5Target env (request ++ rest) request.length = some target) :
    target.remotePort = requestedPort request ∧
      target.remoteEndpoint.map TcpEndpoint.port
        = if byteAt request 3 = 3 then none else some (requestedPort request) := by
  obtain ⟨hn, hport, hendpoint⟩ := socks5Target_spec h
  have hshort : shortAt (request ++ rest) (request.length - 2)
      = shortAt request (request.length - 2) := by
    rw [shortAt, shortAt, byteAt_append rest (by omega), byteAt_append rest (by omega)]
  rw [hshort] at hport
  rw [byteAt_append rest (by omega), hport] at hendpoint
  exact ⟨hport, hendpoint⟩

/-- The relay of a SOCKS5 connection whose payload names no server has the port of the target. -/
lemma relaySocks5_of_not_namesServer {vars : ConnVars} {payload : Bytes} {unread : List Bytes}
    {call : RelayCall} (hname : ¬ NamesServer payload)
    (h : relaySocks5 env vars target payload unread = some call) :
    call.ctx.remotePort = target.remotePort ∧ call.ctx.user = env.user := by
  rw [relaySocks5] at h
  dsimp only at h
  split at h
  · rename_i htls
    split at h
    · cases h
    · rename_i hversion
      have hno : NoServerName payload := by
        by_contra hnot
        exact hname ⟨htls.1, htls.2, Nat.le_of_not_lt hversion, hnot⟩
      rw [handleTlsConnection_of_noServerName _ _ _ _ hno] at h
      obtain rfl := Option.some.inj h
      exact ⟨rfl, rfl⟩
  · obtain rfl := Option.some.inj h
    exact ⟨rfl, rfl⟩

/-- With a server name it has the port of the endpoint, or 443. -/
lemma relaySocks5_of_namesServer {vars : ConnVars} {payload : Bytes} {unread : List Bytes}
    (hname : NamesServer payload) :
    ∃ call, relaySocks5 env vars target payload unread = some call ∧
      call.ctx.remotePort = (target.remoteEndpoint.map TcpEndpoint.port).getD 443 ∧
      call.ctx.user = env.user := by
  obtain ⟨hlen, htls, hversion, hnot⟩ := hname
  obtain ⟨call, heq, hport, huser, -⟩ :=
    handleTlsConnection_of_name env vars target.remoteEndpoint unread hnot
  refine ⟨call, ?_, hport, huser⟩
  rw [relaySocks5]
  dsimp only
  rw [if_pos ⟨hlen, htls⟩, if_neg (Nat.not_lt.mpr hversion), heq]
  rfl

lemma handleSocks5Connection_of_target {sock : TcpSocket} {buffer request payload : Bytes}
    {unread : List Bytes} (hauth : noAuthOffered buffer = true)
    (htarget : socks5Target env (request ++ buffer.drop request.length) request.length
      = some target) :
    handleSocks5Connection env ⟨sock, some buffer⟩ (request :: payload :: unread)
      = relaySocks5 env
          ⟨sock, some (payload ++ (request ++ buffer.drop request.length).drop payload.length)⟩
          target payload unread := by
  simp only [handleSocks5Connection, hauth, if_true, htarget]

/-- **Ports.**  The relay of an accepted request goes to the port of the request if and only if the
request does not name a domain, or the port is 443, or the payload is not relayed as TLS. -/
theorem socks5_port_iff {sock : TcpSocket} {buffer request payload : Bytes} {unread : List Bytes}
    (hauth : noAuthOffered buffer = true)
    (htarget : socks5Target env (request ++ buffer.drop request.length) request.length
      = some target) :
    (∀ call, handleSocks5Connection env ⟨sock, some buffer⟩ (request :: payload :: unread)
        = some call → call.ctx.remotePort = requestedPort request) ↔
      byteAt request 3 ≠ 3 ∨ requestedPort request = 443 ∨ ¬ NamesServer payload := by
  obtain ⟨hport, hendpoint⟩ := socks5Target_request htarget
  rw [handleSocks5Connection_of_target hauth htarget]
  by_cases hname : NamesServer payload
  · obtain ⟨call, hcall, hcallPort, -⟩ := relaySocks5_of_namesServer hname
    rw [hcall]
    rw [hendpoint] at hcallPort
    constructor
    · intro h
      have hsame := h call rfl
      rw [hcallPort] at hsame
      by_cases htype : byteAt request 3 = 3
      · rw [if_pos htype] at hsame
        exact Or.inr (Or.inl hsame.symm)
      · exact Or.inl htype
    · intro hcond call' hcall'
      obtain rfl := Option.some.inj hcall'
      rw [hcallPort]
      rcases hcond with htype | h443 | hnot
      · rw [if_neg htype]
        rfl
      · split
        · exact h443.symm
        · rfl
      · exact absurd hname hnot
  · refine ⟨fun _ => Or.inr (Or.inr hname), fun _ call hcall => ?_⟩
    rw [(relaySocks5_of_not_namesServer hname hcall).1, hport]

end Socks5

/-- An entry node of a user. -/
def entryEnv (user : Bytes) (isRedirectNode : Bool) : EntryEnv where
  user := user
  isRedirectNode := isRedirectNode
  toString := id
  isPrivateAddress _ := false

/-- `CONNECT a:8080`. -/
def connectDomain : Bytes := [5, 1, 0, 3, 1, 97, 0x1f, 0x90]

/-- A ClientHello for the server `b`. -/
def clientHello : Bytes :=
  [0x16, 3, 1, 0, 54, 1] ++ List.replicate 37 0
    ++ [0, 0, 0, 0, 0, 10, 0, 0, 0, 6, 0, 4, 0, 0, 1, 98]

/-- A domain, with a payload that is not TLS. -/
theorem socks5_port_iff_plain :
    noAuthOffered [5, 1, 0] = true ∧
      ∀ call, handleSocks5Connection (entryEnv [] false) ⟨⟨true⟩, some [5, 1, 0]⟩
        [connectDomain, [71, 69, 84, 32]] = some call → call.ctx.remotePort = 8080 := by
  have htarget : socks5Target (entryEnv [] false)
      (connectDomain ++ [5, 1, 0].drop connectDomain.length) connectDomain.length
      = some ⟨[97], 8080, none⟩ := by decide +kernel
  refine ⟨by decide, (socks5_port_iff (by decide) htarget).mpr (Or.inr (Or.inr ?_))⟩
  exact fun h => absurd h.2.1 (by decide)

/-- A domain with another port than 443, and a ClientHello: the relay goes to port 443. -/
theorem domain_port_lost :
    ∃ call, handleSocks5Connection (entryEnv [] false) ⟨⟨true⟩, some [5, 1, 0]⟩
        [connectDomain, clientHello] = some call ∧
      requestedPort connectDomain = 8080 ∧ call.ctx.remotePort = 443 := by
  have hport : (handleSocks5Connection (entryEnv [] false) ⟨⟨true⟩, some [5, 1, 0]⟩
      [connectDomain, clientHello]).map (·.ctx.remotePort) = some 443 := by decide +kernel
  obtain ⟨call, hcall, hcallPort⟩ := Option.map_eq_some_iff.mp hport
  exact ⟨call, hcall, by decide, hcallPort⟩

/-! ## After a failure of the TLS handler -/

/-- The variables own an open connection, and the bytes of a view of the buffer are there. -/
def ConnVars.Owns (vars : ConnVars) (data : Bytes) : Prop :=
  vars.sock.isOpen = true ∧ vars.view data.length = some data

/-- The relay is one of an open connection, with all bytes already read. -/
def RelayCall.Carries (call : RelayCall) (data : Bytes) : Prop :=
  call.sock.isOpen = true ∧ call.readedData = some data

lemma not_owns_movedFrom (data : Bytes) : ¬ ConnVars.movedFrom.Owns data := by
  rintro ⟨hopen, -⟩
  cases hopen

lemma RelayCall.not_carries {call : RelayCall} (hsock : call.sock = .movedFrom) (data : Bytes) :
    ¬ call.Carries data := by
  rintro ⟨hopen, -⟩
  rw [hsock] at hopen
  cases hopen

section Fallback

variable {sock : TcpSocket}

/-- The fallback of `handle_conn` relays the variable that has been moved from. -/
lemma handleConn_of_noServerName {env : EntryEnv} {origDst : Option TcpEndpoint}
    {endpoint : TcpEndpoint} (hredirect : redirectEndpoint env origDst = some endpoint)
    {first : Bytes} (hlen : 3 ≤ first.length) (htls : byteAt first 0 = 0x16)
    (hversion : 3 ≤ byteAt first 1) (hname : NoServerName first) (stale : Bytes)
    (later : List Bytes) :
    handleConn env origDst sock stale (first :: later)
      = relayDirect env .movedFrom first.length (some endpoint) later := by
  rw [handleConn]
  dsimp only
  rw [hredirect, if_neg (Nat.not_lt.mpr hlen), if_neg (fun h => by cases h.1),
    if_neg (fun h => by cases h.1), if_pos htls, if_neg (Nat.not_lt.mpr hversion),
    handleTlsConnection_of_noServerName _ _ _ _ hname]
  rfl

/-- And so does the one of `handle_socks5_connection`. -/
lemma relaySocks5_of_noServerName (env : EntryEnv) (vars : ConnVars) (target : Socks5Target)
    {payload : Bytes} (hlen : 3 < payload.length) (htls : byteAt payload 0 = 0x16)
    (hversion : 3 ≤ byteAt payload 1) (hname : NoServerName payload) (unread : List Bytes) :
    ∃ call, relaySocks5 env vars target payload unread = some call ∧ call.sock = .movedFrom := by
  rw [relaySocks5]
  dsimp only
  rw [if_pos ⟨hlen, htls⟩, if_neg (Nat.not_lt.mpr hversion),
    handleTlsConnection_of_noServerName _ _ _ _ hname]
  exact ⟨_, rfl, rfl⟩

/-- **Fallback.**  When the TLS handler gives up, its caller never has the connection any more, and
neither fallback relays it. -/
theorem tls_failure_loses_connection (env : EntryEnv) {first stale : Bytes} {later : List Bytes}
    {endpoint : Option TcpEndpoint}
    (hfail : (handleTlsConnection env ⟨sock, some (first ++ stale)⟩ first endpoint later).success
      = false) :
    ¬ (handleTlsConnection env ⟨sock, some (first ++ stale)⟩ first endpoint later).vars.Owns
      first ∧
    (∀ origDst, (redirectEndpoint env origDst).isSome → 3 ≤ first.length →
      byteAt first 0 = 0x16 → 3 ≤ byteAt first 1 →
      ∃ call, handleConn env origDst sock stale (first :: later) = [call] ∧
        ¬ call.Carries first) ∧
    (∀ buffer request, noAuthOffered buffer = true →
      (socks5Target env (request ++ buffer.drop request.length) request.length).isSome →
      3 < first.length → byteAt first 0 = 0x16 → 3 ≤ byteAt first 1 →
      ∃ call, handleSocks5Connection env ⟨sock, some buffer⟩ (request :: first :: later)
        = some call ∧ ¬ call.Carries first) := by
  have hname := (handleTlsConnection_success_iff env _ endpoint later).mp hfail
  refine ⟨?_, fun origDst hredirect hlen htls hversion => ?_,
    fun buffer request hauth hsome hlen htls hversion => ?_⟩
  · rw [handleTlsConnection_of_noServerName _ _ _ _ hname]
    exact not_owns_movedFrom first
  · obtain ⟨endpoint, hendpoint⟩ := Option.isSome_iff_exists.mp hredirect
    rw [handleConn_of_noServerName hendpoint hlen htls hversion hname]
    exact ⟨_, rfl, RelayCall.not_carries rfl first⟩
  · obtain ⟨target, htarget⟩ := Option.isSome_iff_exists.mp hsome
    rw [handleSocks5Connection_of_target hauth htarget]
    obtain ⟨call, hcall, hsock⟩ :=
      relaySocks5_of_noServerName env _ target hlen htls hversion hname later
    exact ⟨call, hcall, RelayCall.not_carries hsock first⟩

end Fallback

/-- The first four bytes of a ClientHello. -/
theorem tls_failure_loses_connection_split :
    (redirectEndpoint (entryEnv [] true) (some ⟨[93, 184, 216, 34], 443⟩)).isSome ∧
      ∃ call, handleConn (entryEnv [] true) (some ⟨[93, 184, 216, 34], 443⟩) ⟨true⟩ []
          [clientHello.take 4, clientHello.drop 4] = [call] ∧
        ¬ call.Carries (clientHello.take 4) := by
  have hfail : (handleTlsConnection (entryEnv [] true) ⟨⟨true⟩, some (clientHello.take 4 ++ [])⟩
      (clientHello.take 4) none [clientHello.drop 4]).success = false := by decide +kernel
  refine ⟨by decide, ?_⟩
  exact (tls_failure_loses_connection (entryEnv [] true) hfail).2.1 _ (by decide) (by decide)
    (by decide) (by decide)

/-- A ClientHello of which four bytes have arrived: the caller has neither the connection nor the
bytes. -/
theorem split_hello_lost :
    (handleTlsConnection (entryEnv [] true) ⟨⟨true⟩, some (clientHello.take 4)⟩
        (clientHello.take 4) none [clientHello.drop 4]).success = false ∧
      ¬ (handleTlsConnection (entryEnv [] true) ⟨⟨true⟩, some (clientHello.take 4)⟩
        (clientHello.take 4) none [clientHello.drop 4]).vars.Owns (clientHello.take 4) := by
  constructor
  · decide +kernel
  · rintro ⟨hopen, -⟩
    revert hopen
    decide +kernel

/-! ## The user of a relay -/

/-- The user has an exit session with connections. -/
def HasExitSession {κ : Type} (m : MuxConnManager κ) (user : Bytes) : Prop :=
  ∃ userConn, m.muxConns.lookup user = some userConn ∧
    ∃ entry ∈ (userConn.sessions .exit).entries, entry.2.conns.length ≠ 0

/-- `do_relay` looks up the configured user, and finds the exit session of that user. -/
def FindsExit (env : EntryEnv) (call : RelayCall) : Prop :=
  call.ctx.user = env.user ∧
    ∀ (κ : Type) (m : MuxConnManager κ), HasExitSession m env.user →
      (m.getRelayEventWriterFactory call.ctx.user).isSome

lemma getRelayEventWriterFactory_isSome {κ : Type} {m : MuxConnManager κ} {user : Bytes}
    (h : HasExitSession m user) : (m.getRelayEventWriterFactory user).isSome := by
  obtain ⟨userConn, hlookup, entry, hentry, hconns⟩ := h
  rw [MuxConnManager.getRelayEventWriterFactory, hlookup, Option.bind_eq_bind, Option.bind_some]
  have hfind : ((userConn.sessions .exit).entries.find?
      fun entry => entry.2.conns.length ≠ 0).isSome := by
    rw [List.find?_isSome]
    exact ⟨entry, hentry, decide_eq_true hconns⟩
  obtain ⟨found, hfound⟩ := Option.isSome_iff_exists.mp hfind
  rw [hfound]
  rfl

lemma findsExit_of_user {env : EntryEnv} {call : RelayCall} (h : call.ctx.user = env.user) :
    FindsExit env call := by
  refine ⟨h, fun κ m hexit => ?_⟩
  rw [h]
  exact getRelayEventWriterFactory_isSome hexit

/-- The connection is relayed as an HTTP request: it begins with a method, its head is complete in
the first segment and is not rejected. -/
def RelayedAsHttp (segments : List Bytes) : Prop :=
  ∃ first later endPos, segments = first :: later ∧ isHttpMethod (first.take 3) = true ∧
    find [13, 10, 13, 10] first = some endPos ∧ ¬ Unroutable (first.take endPos)

lemma le_toNat_of_asciiToLower {b : UInt8} (h : 65 ≤ (asciiToLower b).toNat) : 65 ≤ b.toNat := by
  rw [asciiToLower] at h
  split at h
  · rename_i hupper
    exact UInt8.le_iff_toNat_le.mp hupper.1
  · exact h

/-- A method begins with a letter. -/
lemma isHttpMethod_byteAt {first : Bytes} (h : isHttpMethod (first.take 3) = true) :
    65 ≤ byteAt first 0 := by
  obtain ⟨method, hmethod, hequal⟩ := List.any_eq_true.mp h
  have hletter : ∀ method ∈ httpMethods, 65 ≤ byteAt (method.map asciiToLower) 0 := by decide
  have hlower : (first.take 3).map asciiToLower = method.map asciiToLower :=
    of_decide_eq_true hequal
  have hfirst := hletter method hmethod
  rw [← hlower] at hfirst
  cases first with
  | nil => exact absurd hfirst (by decide)
  | cons b first => exact le_toNat_of_asciiToLower hfirst

lemma direct_of_mem_relayDirect {env : EntryEnv} {vars : ConnVars} {n : ℕ}
    {endpoint : Option TcpEndpoint} {unread : List Bytes} {call : RelayCall}
    (h : call ∈ relayDirect env vars n endpoint unread) : call.ctx.direct = true := by
  cases endpoint with
  | none => cases h
  | some endpoint =>
      rw [relayDirect, List.mem_singleton] at h
      rw [h]

lemma relaySocks5_user {env : EntryEnv} {vars : ConnVars} {target : Socks5Target} {payload : Bytes}
    {unread : List Bytes} {call : RelayCall}
    (h : relaySocks5 env vars target payload unread = some call) : call.ctx.user = env.user := by
  by_cases hname : NamesServer payload
  · obtain ⟨call', hcall', -, huser⟩ := relaySocks5_of_namesServer hname
    rw [hcall'] at h
    obtain rfl := Option.some.inj h
    exact huser
  · exact (relaySocks5_of_not_namesServer hname h).2

lemma handleSocks5Connection_user {env : EntryEnv} {vars : ConnVars} {segments : List Bytes}
    {call : RelayCall} (h : handleSocks5Connection env vars segments = some call) :
    call.ctx.user = env.user := by
  unfold handleSocks5Connection at h
  split at h
  · split at h
    · dsimp only at h
      split at h
      · cases h
      · exact relaySocks5_user h
    · cases h
  · cases h

/-- What `handle_conn` relays through the mux has the configured user, or it is an HTTP request. -/
lemma handleConn_cases {env : EntryEnv} {origDst : Option TcpEndpoint} {sock : TcpSocket}
    {stale first : Bytes} {later : List Bytes} {call : RelayCall}
    (h : call ∈ handleConn env origDst sock stale (first :: later)) :
    call.ctx.direct = true ∨ call.ctx.user = env.user ∨
      isHttpMethod (first.take 3) = true ∧ handleHttpConnection sock first later = some call := by
  rw [handleConn] at h
  dsimp only at h
  split at h
  · cases h
  split at h
  · rw [List.mem_append, Option.mem_toList] at h
    rcases h with hsocks | hdirect
    · exact Or.inr (Or.inl (handleSocks5Connection_user hsocks))
    · exact Or.inl (direct_of_mem_relayDirect hdirect)
  split at h
  · cases h
  split at h
  · split at h
    · cases h
    · by_cases hname : NoServerName first
      · rw [handleTlsConnection_of_noServerName _ _ _ _ hname] at h
        exact Or.inl (direct_of_mem_relayDirect h)
      · obtain ⟨call', heq, -, huser, -⟩ := handleTlsConnection_of_name env
          ⟨sock, some (first ++ stale)⟩ (redirectEndpoint env origDst) later hname
        rw [heq] at h
        obtain rfl := List.mem_singleton.mp h
        exact Or.inr (Or.inl huser)
  split at h
  · rename_i hmethod
    rw [Option.mem_toList] at h
    exact Or.inr (Or.inr ⟨hmethod, h⟩)
  · exact Or.inl (direct_of_mem_relayDirect h)

lemma handleConn_of_isHttpMethod {env : EntryEnv} {origDst : Option TcpEndpoint} {sock : TcpSocket}
    {stale first : Bytes} {later : List Bytes} (hlen : 3 ≤ first.length)
    (hmethod : isHttpMethod (first.take 3) = true) :
    handleConn env origDst sock stale (first :: later)
      = (handleHttpConnection sock first later).toList := by
  have hbyte := isHttpMethod_byteAt hmethod
  rw [handleConn]
  dsimp only
  rw [if_neg (Nat.not_lt.mpr hlen), if_neg (fun h => by omega), if_neg (fun h => by omega),
    if_neg (by omega), if_pos hmethod]

/-- The relay of an HTTP request, whose context has no user. -/
lemma handleHttpConnection_user {sock : TcpSocket} {first : Bytes} {later : List Bytes}
    {call : RelayCall} (h : handleHttpConnection sock first later = some call) :
    call.ctx.user = [] ∧ ∃ endPos, find [13, 10, 13, 10] first = some endPos ∧
      ¬ Unroutable (first.take endPos) := by
  rw [handleHttpConnection_eq, Option.bind_eq_some_iff] at h
  obtain ⟨endPos, hend, h⟩ := h
  obtain ⟨route, hroute, rfl⟩ := Option.map_eq_some_iff.mp h
  refine ⟨rfl, endPos, hend, ?_⟩
  rw [← httpRoute_eq_none_iff, hroute]
  exact Option.some_ne_none route

lemma RelayedAsHttp.exists_call {env : EntryEnv} {origDst : Option TcpEndpoint} {sock : TcpSocket}
    {stale : Bytes} {segments : List Bytes} (h : RelayedAsHttp segments) :
    ∃ call ∈ handleConn env origDst sock stale segments,
      call.ctx.direct = false ∧ call.ctx.user = [] := by
  obtain ⟨first, later, endPos, rfl, hmethod, hend, hroutable⟩ := h
  have hlen := (find_eq_some_iff.mp hend).occurs.length_le (List.cons_ne_nil _ _)
  simp only [List.length_cons, List.length_nil] at hlen
  rw [handleConn_of_isHttpMethod (by omega) hmethod, handleHttpConnection_eq, hend,
    Option.bind_some]
  rw [← httpRoute_eq_none_iff] at hroutable
  obtain ⟨route, hroute⟩ := Option.ne_none_iff_exists'.mp hroutable
  rw [hroute]
  exact ⟨_, List.mem_singleton_self _, rfl, rfl⟩

/-- **Users.**  A tunnel port finds the exit session of the configured user.  So does every
connection of the entry server if and only if the user is the empty one, or the connection is not
relayed as an HTTP request. -/
theorem configured_user_iff (env : EntryEnv) (sock : TcpSocket) (segments : List Bytes) :
    (∀ dstHost dstPort, FindsExit env (handleTunnelConn env dstHost dstPort sock segments)) ∧
    ∀ origDst stale,
      (∀ call ∈ handleConn env origDst sock stale segments, call.ctx.direct = false →
        FindsExit env call) ↔ env.user = [] ∨ ¬ RelayedAsHttp segments := by
  refine ⟨fun dstHost dstPort => findsExit_of_user rfl, fun origDst stale => ?_⟩
  constructor
  · intro h
    by_cases hhttp : RelayedAsHttp segments
    · obtain ⟨call, hmem, hdirect, huser⟩ := hhttp.exists_call
      left
      rw [← (h call hmem hdirect).1, huser]
    · exact Or.inr hhttp
  · intro hcond call hmem hdirect
    apply findsExit_of_user
    cases segments with
    | nil => cases hmem
    | cons first later =>
        rcases handleConn_cases hmem with hcontra | huser | ⟨hmethod, hcall⟩
        · rw [hdirect] at hcontra
          cases hcontra
        · exact huser
        · obtain ⟨huser, endPos, hend, hroutable⟩ := handleHttpConnection_user hcall
          have hhttp : RelayedAsHttp (first :: later) :=
            ⟨first, later, endPos, rfl, hmethod, hend, hroutable⟩
          rw [huser, hcond.resolve_right (not_not_intro hhttp)]

/-- The table of an exit node of `u` with one connection. -/
def exitTable : MuxConnManager Unit :=
  (MuxConnManager.empty.add (fun _ => .exit) (ascii "u".toList) 1 ()).1

/-- A request of the user's client: the relay looks for the empty user and finds no session. -/
theorem http_user_missing :
    ∃ call ∈ handleConn (entryEnv (ascii "u".toList) false) none ⟨true⟩ [] [getRequest],
      call.ctx.direct = false ∧ HasExitSession exitTable (ascii "u".toList) ∧
      exitTable.getRelayEventWriterFactory call.ctx.user = none ∧
      ¬ FindsExit (entryEnv (ascii "u".toList) false) call := by
  have hexit : HasExitSession exitTable (ascii "u".toList) :=
    ⟨_, rfl, ⟨1, ⟨[some ()]⟩⟩, List.mem_singleton_self _, by decide⟩
  have hcall : (handleConn (entryEnv (ascii "u".toList) false) none ⟨true⟩ [] [getRequest]).map
      (fun call => (call.ctx.direct, call.ctx.user)) = [(false, [])] := by decide +kernel
  obtain ⟨call, hmem, hctx⟩ := List.mem_map.mp (hcall.symm ▸ List.mem_singleton_self (false, []))
  obtain ⟨hdirect, huser⟩ := Prod.mk.inj hctx
  refine ⟨call, hmem, hdirect, hexit, ?_, fun h => ?_⟩
  · rw [huser]
    rfl
  · have hsame := h.1
    rw [huser] at hsame
    revert hsame
    decide

end Snova
