import Snova.Framework.Bytes
import Snova.Framework.Exec
import Mathlib.Logic.Function.Basic

/-!
# The DNS proxy

`handle_dns_query`, `dns_response`, `default_ns_loop` and the part of `trusted_ns_loop` behind the
reassembly (`snova/server/dns_proxy_server.cc`), over the table `g_dns_states`.  The table is keyed
by the transaction id alone, which the client chooses.  `emplace` leaves an entry that is there;
`dns_response` and the timeout of a query erase whatever entry the id has.

Queries are numbered in the order in which they arrive.  A request is a message to one of the
name servers that may still be answered; the answer carries the transaction id of its query.  A
request remembers the query it was sent for and a datagram the query it answers: the code has
neither, they are what the statements are about.
-/

namespace Snova

/-- `DNSProxyState`, with the number of its query. -/
structure DnsProxyState (E : Type*) where
  query : ℕ
  origEndpoint : E
  origPayload : Bytes
  disableDefaultNs : Bool
  disableTrustedNs : Bool

inductive NameServer
  | default
  | trusted

/-- A message to a name server that may still be answered. -/
structure NsRequest where
  server : NameServer
  query : ℕ

/-- A datagram to a client: the endpoint, and the query whose answer it carries. -/
structure DnsDatagram (E : Type*) where
  endpoint : E
  answers : ℕ

structure DnsProxy (E : Type*) where
  -- the transaction ids and endpoints of the queries so far
  queries : List (UInt16 × E)
  dnsStates : UInt16 → Option (DnsProxyState E)
  -- whether the timeout of a query is in the time wheel
  armed : ℕ → Bool
  requests : List NsRequest
  sent : List (DnsDatagram E)
  -- the timeouts that erased an entry: the query whose timeout it was, and that of the entry
  timedOut : List (ℕ × ℕ)

inductive DnsAction (E : Type*)
  -- a query arrives; it is for a trusted domain or not, and the request for it is written or not
  | query (txid : UInt16) (endpoint : E) (payload : Bytes) (trustedDomain written : Bool)
  -- a request to the default name server is answered, with an address in the IP ranges (or an
  -- answer that cannot be parsed) or not; the same answer may arrive again
  | defaultAnswer (request : ℕ) (matched written again : Bool)
  | trustedAnswer (request : ℕ) (again : Bool)
  -- the timeout of a query
  | timeout (query : ℕ)

namespace DnsProxy

variable {E : Type*}

def init : DnsProxy E := ⟨[], fun _ => none, fun _ => false, [], [], []⟩

/-- A request is on its way to a name server, if it could be written. -/
def request (s : DnsProxy E) (written : Bool) (server : NameServer) (query : ℕ) : DnsProxy E :=
  if written then { s with requests := s.requests ++ [⟨server, query⟩] } else s

/-- A request has been answered. -/
def answered (s : DnsProxy E) (request : ℕ) (again : Bool) : DnsProxy E :=
  if again then s else { s with requests := s.requests.eraseIdx request }

/-- `g_dns_states.emplace`: an entry that is there stays. -/
def emplace (s : DnsProxy E) (txid : UInt16) (state : DnsProxyState E) : DnsProxy E :=
  match s.dnsStates txid with
  | some _ => s
  | none => { s with dnsStates := Function.update s.dnsStates txid (some state) }

/-- `handle_dns_query`. -/
def handleDnsQuery (s : DnsProxy E) (txid : UInt16) (endpoint : E) (payload : Bytes)
    (trustedDomain written : Bool) : DnsProxy E :=
  let query := s.queries.length
  let state : DnsProxyState E :=
    { query := query
      origEndpoint := endpoint
      disableDefaultNs := trustedDomain
      disableTrustedNs := false
      origPayload := if trustedDomain then [] else payload }
  let s := { s with
    queries := s.queries ++ [(txid, endpoint)]
    armed := Function.update s.armed query true }
  let s := s.emplace txid state
  s.request written (if trustedDomain then .trusted else .default) query

/-- `dns_response`, with the answer to a query. -/
def dnsResponse (s : DnsProxy E) (txid : UInt16) (answers : ℕ) : DnsProxy E :=
  match s.dnsStates txid with
  | none => s
  | some state =>
      { s with
        armed := Function.update s.armed state.query false
        dnsStates := Function.update s.dnsStates txid none
        sent := s.sent ++ [⟨state.origEndpoint, answers⟩] }

/-- One turn of `default_ns_loop`: an answer outside the IP ranges makes it ask the trusted name
server. -/
def defaultNsLoop (s : DnsProxy E) (txid : UInt16) (answers : ℕ) (matched written : Bool) :
    DnsProxy E :=
  if matched then s.dnsResponse txid answers
  else
    match s.dnsStates txid with
    | none => s.dnsResponse txid answers
    | some state =>
        if state.disableTrustedNs = false ∧ state.origPayload ≠ [] then
          s.request written .trusted state.query
        else s.dnsResponse txid answers

/-- The timeout that `handle_dns_query` registers. -/
def onTimeout (s : DnsProxy E) (txid : UInt16) (query : ℕ) : DnsProxy E :=
  { s with
    armed := Function.update s.armed query false
    dnsStates := Function.update s.dnsStates txid none
    timedOut := s.timedOut ++ (s.dnsStates txid).toList.map fun state => (query, state.query) }

/-- The transaction id of a query. -/
def txidOf (s : DnsProxy E) (query : ℕ) : Option UInt16 := (s.queries[query]?).map Prod.fst

def step (s : DnsProxy E) : DnsAction E → Option (DnsProxy E)
  | .query txid endpoint payload trustedDomain written =>
      some (s.handleDnsQuery txid endpoint payload trustedDomain written)
  | .defaultAnswer i matched written again =>
      match s.requests[i]? with
      | some ⟨.default, query⟩ =>
          (s.txidOf query).map fun txid =>
            (s.answered i again).defaultNsLoop txid query matched written
      | _ => none
  | .trustedAnswer i again =>
      match s.requests[i]? with
      | some ⟨.trusted, query⟩ =>
          (s.txidOf query).map fun txid => (s.answered i again).dnsResponse txid query
      | _ => none
  | .timeout query =>
      if s.armed query then (s.txidOf query).map fun txid => s.onTimeout txid query else none

end DnsProxy

end Snova
