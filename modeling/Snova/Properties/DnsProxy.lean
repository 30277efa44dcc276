import Snova.Model.DnsProxy

/-!
# Who gets an answer

Every answer should go to the client that asked, once, and the timeout of a query should end that
query and no other.  With two clients that use the same transaction id at the same time, neither
holds (`answer_to_other_client`): the table has one entry for the id, that of the first.

It does hold as long as a transaction id is not used again before its last query is over: no
entry, no timeout and no request of it is left (`TxidFree`).  Then whatever carries an id belongs
to the latest query with that id (`Owned`), and `answers_reach_their_clients` follows.
-/

namespace Snova.DnsProxy

variable {E : Type*} {s s' : DnsProxy E}

/-- The query is the latest with its transaction id. -/
structure Current (queries : List (UInt16 × E)) (query : ℕ) (txid : UInt16) (endpoint : E) :
    Prop where
  known : queries[query]? = some (txid, endpoint)
  latest : ∀ (q : ℕ) (endpoint' : E), queries[q]? = some (txid, endpoint') → q ≤ query

lemma Current.unique {queries : List (UInt16 × E)} {q q' : ℕ} {txid : UInt16} {e e' : E}
    (h : Current queries q txid e) (h' : Current queries q' txid e') : q = q' ∧ e = e' := by
  have hq : q = q' := Nat.le_antisymm (h'.latest q e h.known) (h.latest q' e' h'.known)
  subst hq
  have hp := Option.some.inj (h.known.symm.trans h'.known)
  exact ⟨rfl, (Prod.mk.inj hp).2⟩

/-- What the proxy owes its clients: a datagram goes to the client that sent the query it answers,
a query is answered once, and a timeout erases the entry of its own query. -/
structure Faithful (s : DnsProxy E) : Prop where
  client : ∀ d ∈ s.sent, ∃ txid, s.queries[d.answers]? = some (txid, d.endpoint)
  once : (s.sent.map DnsDatagram.answers).Nodup
  own_timeout : ∀ p ∈ s.timedOut, p.2 = p.1

/-- The invariant: entries, timeouts and requests are those of the latest query of their id, and
the entry of an answered query is gone. -/
structure Owned (s : DnsProxy E) : Prop where
  faithful : s.Faithful
  entry : ∀ txid state, s.dnsStates txid = some state →
    Current s.queries state.query txid state.origEndpoint
  timer : ∀ q, s.armed q = true → ∃ txid endpoint, Current s.queries q txid endpoint
  request : ∀ r ∈ s.requests, ∃ txid endpoint, Current s.queries r.query txid endpoint
  gone : ∀ d ∈ s.sent, ∀ txid state, s.dnsStates txid = some state → state.query ≠ d.answers

/-- The transaction id of a new query is free: no entry, no timeout and no request has it. -/
def TxidFree (s : DnsProxy E) : DnsAction E → Prop
  | .query txid _ _ _ _ =>
      s.dnsStates txid = none ∧ (∀ q, s.armed q = true → s.txidOf q ≠ some txid) ∧
        ∀ r ∈ s.requests, s.txidOf r.query ≠ some txid
  | _ => True

/-! ## One step -/

lemma Owned.init : (init : DnsProxy E).Owned where
  faithful := ⟨fun _ h => (nomatch h), List.nodup_nil, fun _ h => (nomatch h)⟩
  entry := fun _ _ h => nomatch h
  timer := fun _ h => nomatch h
  request := fun _ h => nomatch h
  gone := fun _ h => nomatch h

lemma Owned.answered (h : s.Owned) (i : ℕ) (again : Bool) : (s.answered i again).Owned := by
  rw [DnsProxy.answered]
  split
  · exact h
  · exact ⟨⟨h.faithful.client, h.faithful.once, h.faithful.own_timeout⟩, h.entry, h.timer,
      fun r hr => h.request r (List.mem_of_mem_eraseIdx hr), h.gone⟩

lemma Owned.addRequest (h : s.Owned) {written : Bool} {server : NameServer} {query : ℕ}
    {txid : UInt16} {endpoint : E} (hcurrent : Current s.queries query txid endpoint) :
    (s.request written server query).Owned := by
  rw [DnsProxy.request]
  split
  · refine ⟨⟨h.faithful.client, h.faithful.once, h.faithful.own_timeout⟩, h.entry, h.timer, ?_,
      h.gone⟩
    intro r hr
    rcases List.mem_append.mp hr with hr | hr
    · exact h.request r hr
    · rw [List.mem_singleton.mp hr]
      exact ⟨txid, endpoint, hcurrent⟩
  · exact h

/-- An entry may be erased, with or without its timeout. -/
lemma Owned.erase (h : s.Owned) (txid : UInt16) (q : ℕ) :
    { s with
      armed := Function.update s.armed q false
      dnsStates := Function.update s.dnsStates txid none }.Owned := by
  have hentry : ∀ txid' state, Function.update s.dnsStates txid none txid' = some state →
      s.dnsStates txid' = some state := by
    intro txid' state hstate
    by_cases htxid : txid' = txid
    · rw [htxid, Function.update_self] at hstate
      cases hstate
    · rwa [Function.update_of_ne htxid] at hstate
  refine ⟨⟨h.faithful.client, h.faithful.once, h.faithful.own_timeout⟩, ?_, ?_, h.request, ?_⟩
  · intro txid' state hstate
    exact h.entry txid' state (hentry txid' state hstate)
  · intro q' hq'
    by_cases hq : q' = q
    · simp [hq] at hq'
    · simp only [Function.update_of_ne hq] at hq'
      exact h.timer q' hq'
  · intro d hd txid' state hstate
    exact h.gone d hd txid' state (hentry txid' state hstate)

/-- The answer to a current query goes to its client, and it is the first. -/
lemma Owned.dnsResponse (h : s.Owned) {txid : UInt16} {endpoint : E} {query : ℕ}
    (hcurrent : Current s.queries query txid endpoint) : (s.dnsResponse txid query).Owned := by
  rw [DnsProxy.dnsResponse]
  split
  · exact h
  · next state hstate =>
      obtain ⟨rfl, rfl⟩ := hcurrent.unique (h.entry txid state hstate)
      have herase := h.erase txid state.query
      have hnew : state.query ∉ s.sent.map DnsDatagram.answers := by
        intro hmem
        obtain ⟨d, hd, heq⟩ := List.mem_map.mp hmem
        exact h.gone d hd txid state hstate heq.symm
      refine ⟨⟨?_, ?_, h.faithful.own_timeout⟩, herase.entry, herase.timer, herase.request, ?_⟩
      · intro d hd
        rcases List.mem_append.mp hd with hd | hd
        · exact h.faithful.client d hd
        · rw [List.mem_singleton.mp hd]
          exact ⟨txid, hcurrent.known⟩
      · rw [List.map_append, List.map_singleton, List.nodup_append]
        refine ⟨h.faithful.once, List.nodup_singleton _, ?_⟩
        intro a ha b hb
        rw [List.mem_singleton.mp hb]
        rintro rfl
        exact hnew ha
      · intro d hd txid' state' hstate'
        rcases List.mem_append.mp hd with hd | hd
        · exact herase.gone d hd txid' state' hstate'
        · rw [List.mem_singleton.mp hd]
          intro heq
          -- an entry of the same query would have the same transaction id
          have hknown := (herase.entry txid' state' hstate').known
          rw [heq] at hknown
          obtain ⟨rfl, -⟩ := Prod.mk.inj (Option.some.inj (hcurrent.known.symm.trans hknown))
          simp at hstate'

lemma Owned.defaultNsLoop (h : s.Owned) {txid : UInt16} {endpoint : E} {query : ℕ}
    (hcurrent : Current s.queries query txid endpoint) (matched written : Bool) :
    (s.defaultNsLoop txid query matched written).Owned := by
  rw [DnsProxy.defaultNsLoop]
  split
  · exact h.dnsResponse hcurrent
  · split
    · exact h.dnsResponse hcurrent
    · next state hstate =>
        split
        · exact h.addRequest (h.entry txid state hstate)
        · exact h.dnsResponse hcurrent

lemma Owned.onTimeout (h : s.Owned) {txid : UInt16} {endpoint : E} {query : ℕ}
    (hcurrent : Current s.queries query txid endpoint) : (s.onTimeout txid query).Owned := by
  have herase := h.erase txid query
  refine ⟨⟨h.faithful.client, h.faithful.once, ?_⟩, herase.entry, herase.timer, herase.request,
    herase.gone⟩
  intro p hp
  rcases List.mem_append.mp hp with hp | hp
  · exact h.faithful.own_timeout p hp
  · obtain ⟨state, hstate, rfl⟩ := List.mem_map.mp hp
    exact ((h.entry txid state (Option.mem_toList.mp hstate)).unique hcurrent).1

/-- A query with another transaction id does not end a query being current. -/
lemma Current.append {queries : List (UInt16 × E)} {q : ℕ} {txid txid' : UInt16} {e e' : E}
    (h : Current queries q txid e) (hne : txid ≠ txid') :
    Current (queries ++ [(txid', e')]) q txid e := by
  have hlt : q < queries.length := (List.getElem?_eq_some_iff.mp h.known).1
  refine ⟨by rw [List.getElem?_append_left hlt]; exact h.known, ?_⟩
  intro q' e'' hq'
  rcases Nat.lt_or_ge q' queries.length with hlt' | hge
  · rw [List.getElem?_append_left hlt'] at hq'
    exact h.latest q' e'' hq'
  · rw [List.getElem?_append_right hge, List.getElem?_singleton] at hq'
    split at hq'
    · obtain ⟨rfl, -⟩ := Prod.mk.inj (Option.some.inj hq')
      exact absurd rfl hne
    · cases hq'

/-- The newest query is current. -/
lemma current_newest (queries : List (UInt16 × E)) (txid : UInt16) (e : E) :
    Current (queries ++ [(txid, e)]) queries.length txid e := by
  refine ⟨by simp, ?_⟩
  intro q e' hq
  have hlt := (List.getElem?_eq_some_iff.mp hq).1
  rw [List.length_append, List.length_singleton] at hlt
  omega

lemma update_eq_some {α : Type*} {f : UInt16 → Option α} {k k' : UInt16} {v w : α}
    (h : Function.update f k (some v) k' = some w) : k' = k ∧ w = v ∨ k' ≠ k ∧ f k' = some w := by
  by_cases hk : k' = k
  · rw [hk, Function.update_self] at h
    exact .inl ⟨hk, (Option.some.inj h).symm⟩
  · rw [Function.update_of_ne hk] at h
    exact .inr ⟨hk, h⟩

lemma Owned.handleDnsQuery (h : s.Owned) {txid : UInt16} {endpoint : E} {payload : Bytes}
    {trustedDomain written : Bool}
    (hfree : s.TxidFree (.query txid endpoint payload trustedDomain written)) :
    (s.handleDnsQuery txid endpoint payload trustedDomain written).Owned := by
  obtain ⟨hnone, htimers, hrequests⟩ := hfree
  have hne : ∀ {q : ℕ} {txid' : UInt16} {e : E}, Current s.queries q txid' e →
      s.txidOf q ≠ some txid → txid' ≠ txid := by
    rintro q txid' e hc hq rfl
    exact hq (by rw [txidOf, hc.known, Option.map_some])
  have hold : ∀ (q : ℕ) (txid' : UInt16) (e : E), s.queries[q]? = some (txid', e) →
      (s.queries ++ [(txid, endpoint)])[q]? = some (txid', e) := by
    intro q txid' e hq
    rw [List.getElem?_append_left (List.getElem?_eq_some_iff.mp hq).1, hq]
  simp only [DnsProxy.handleDnsQuery, emplace, hnone]
  refine Owned.addRequest ?_ (current_newest s.queries txid endpoint)
  · refine ⟨⟨?_, h.faithful.once, h.faithful.own_timeout⟩, ?_, ?_, ?_, ?_⟩
    · intro d hd
      obtain ⟨txid', hd'⟩ := h.faithful.client d hd
      exact ⟨txid', hold _ _ _ hd'⟩
    · intro txid' state hstate
      rcases update_eq_some hstate with ⟨rfl, rfl⟩ | ⟨htxid, hstate⟩
      · exact current_newest _ _ _
      · exact (h.entry txid' state hstate).append htxid
    · intro q hq
      by_cases hnew : q = s.queries.length
      · subst hnew
        exact ⟨txid, endpoint, current_newest _ _ _⟩
      · simp only [Function.update_of_ne hnew] at hq
        obtain ⟨txid', e, hc⟩ := h.timer q hq
        exact ⟨txid', e, hc.append (hne hc (htimers q hq))⟩
    · intro r hr
      obtain ⟨txid', e, hc⟩ := h.request r hr
      exact ⟨txid', e, hc.append (hne hc (hrequests r hr))⟩
    · intro d hd txid' state hstate
      rcases update_eq_some hstate with ⟨rfl, rfl⟩ | ⟨htxid, hstate⟩
      · obtain ⟨txid'', hd'⟩ := h.faithful.client d hd
        exact (List.getElem?_eq_some_iff.mp hd').1.ne'
      · exact h.gone d hd txid' state hstate

/-- The transaction id of a current query is the one it was found with. -/
lemma current_txidOf {q : ℕ} {txid : UInt16}
    (h : ∃ txid' endpoint, Current s.queries q txid' endpoint) (htxid : s.txidOf q = some txid) :
    ∃ endpoint, Current s.queries q txid endpoint := by
  obtain ⟨txid', endpoint, hc⟩ := h
  rw [txidOf, hc.known, Option.map_some] at htxid
  obtain rfl := Option.some.inj htxid
  exact ⟨endpoint, hc⟩

lemma answered_queries (s : DnsProxy E) (i : ℕ) (again : Bool) :
    (s.answered i again).queries = s.queries := by
  rw [answered]
  split <;> rfl

lemma step_owned {a : DnsAction E} (h : s.Owned) (hfree : s.TxidFree a)
    (hstep : s.step a = some s') : s'.Owned := by
  cases a with
  | query txid endpoint payload trustedDomain written =>
      obtain rfl := Option.some.inj hstep
      exact h.handleDnsQuery hfree
  | defaultAnswer i matched written again =>
      simp only [step] at hstep
      split at hstep
      · next query hrequest =>
          obtain ⟨txid, htxid, rfl⟩ := Option.map_eq_some_iff.mp hstep
          obtain ⟨endpoint, hc⟩ :=
            current_txidOf (h.request _ (List.mem_of_getElem? hrequest)) htxid
          rw [← answered_queries s i again] at hc
          exact (h.answered i again).defaultNsLoop hc matched written
      · cases hstep
  | trustedAnswer i again =>
      simp only [step] at hstep
      split at hstep
      · next query hrequest =>
          obtain ⟨txid, htxid, rfl⟩ := Option.map_eq_some_iff.mp hstep
          obtain ⟨endpoint, hc⟩ :=
            current_txidOf (h.request _ (List.mem_of_getElem? hrequest)) htxid
          rw [← answered_queries s i again] at hc
          exact (h.answered i again).dnsResponse hc
      · cases hstep
  | timeout query =>
      simp only [step] at hstep
      split at hstep
      · next harmed =>
          obtain ⟨txid, htxid, rfl⟩ := Option.map_eq_some_iff.mp hstep
          obtain ⟨endpoint, hc⟩ := current_txidOf (h.timer query harmed) htxid
          exact h.onTimeout hc
      · cases hstep

/-- **Answers reach their clients while transaction ids are not reused too early.**  In every run
with any clients, answers of both name servers in any order and timeouts, in which a query comes
only when the entry, the timeout and the requests of the last query with its transaction id are
gone: every datagram answers a query of the client it is sent to, no query is answered twice, and
every timeout erases the entry of its own query. -/
theorem answers_reach_their_clients (as : List (DnsAction E)) (s : DnsProxy E)
    (hfree : Along step TxidFree init as) (h : exec step init as = some s) : s.Faithful :=
  (exec_invariant_along (fun _ _ _ hs hC hstep => step_owned hs hC hstep) .init hfree h).faithful

/-- The transaction id 7 is used by two clients, one after the other. -/
theorem answers_reach_their_clients_in_turn :
    ∃ s, exec step (init : DnsProxy ℕ)
        [.query 7 100 [7, 0] false true, .defaultAnswer 0 true true false,
          .query 7 200 [7, 0] false true, .defaultAnswer 0 true true false] = some s ∧
      s.sent.map (fun d => (d.endpoint, d.answers)) = [(100, 0), (200, 1)] ∧ s.Faithful := by
  have hfree : Along step TxidFree (init : DnsProxy ℕ)
      [.query 7 100 [7, 0] false true, .defaultAnswer 0 true true false,
        .query 7 200 [7, 0] false true, .defaultAnswer 0 true true false] := by
    refine ⟨⟨rfl, fun q hq => (nomatch hq), fun r hr => (nomatch hr)⟩, fun s hs => ⟨trivial, ?_⟩⟩
    obtain rfl := Option.some.inj hs
    intro s hs
    obtain rfl := Option.some.inj hs
    refine ⟨⟨rfl, ?_, fun r hr => (nomatch hr)⟩, fun s hs => ⟨trivial, fun _ _ => trivial⟩⟩
    intro q hq
    change Function.update (Function.update (fun _ => false) 0 true) 0 false q = true at hq
    simp [Function.update_apply] at hq
  exact ⟨_, rfl, rfl, answers_reach_their_clients _ _ hfree rfl⟩

/-- Two clients use the transaction id 7 at the same time.  The answer to the second query is sent
to the first client. -/
theorem answer_to_other_client :
    ∃ s, exec step (init : DnsProxy ℕ)
        [.query 7 100 [7, 0] false true, .query 7 200 [7, 0] false true,
          .defaultAnswer 1 true true false] = some s ∧
      s.sent.map (fun d => (d.endpoint, d.answers)) = [(100, 1)] ∧ ¬ s.Faithful := by
  refine ⟨_, rfl, rfl, ?_⟩
  intro h
  obtain ⟨txid, hclient⟩ := h.client ⟨100, 1⟩ List.mem_cons_self
  cases hclient

end Snova.DnsProxy
