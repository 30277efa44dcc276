import Snova.Model.DnsOptions
import Snova.Properties.DnsAnswers

/-!
# Matching IP ranges

The networks of a file that are disjoint are found by `MatchIPRanges` where they lie: the last
network that begins at or before an address is the only one that can have it.  But the code takes
`upper_bound` to be the end for an address that is in no network, which is also so for every
address of the network behind all others (`matchIPRanges_iff`).  So a response is believed for the
addresses of all networks but that one (`matchedIpRange_iff`).
-/

namespace Snova

variable {α : Type} {asio : NetworkV4 α}

/-- What asio documents of a network: its addresses go from the first to the last, and the hosts
are among them. -/
structure NetworkV4.Lawful (asio : NetworkV4 α) : Prop where
  network_le : ∀ n, asio.network n ≤ asio.broadcast n
  hosts_le : ∀ n ip, (asio.hosts n).contains ip = true →
    asio.network n ≤ ip ∧ ip ≤ asio.broadcast n

/-- The networks of the lines of a file. -/
def NetworkV4.ofLines (asio : NetworkV4 α) (lines : List Bytes) : List α :=
  lines.filterMap fun line => asio.makeNetworkV4 (stripAsciiWhitespace line)

lemma NetworkV4.ofLines_cons {line : Bytes} {n : α}
    (h : asio.makeNetworkV4 (stripAsciiWhitespace line) = some n) (lines : List Bytes) :
    asio.ofLines (line :: lines) = n :: asio.ofLines lines :=
  List.filterMap_cons_some h

/-- Two networks without a common address. -/
def NetworkV4.Apart (asio : NetworkV4 α) (n n' : α) : Prop :=
  asio.broadcast n < asio.network n' ∨ asio.broadcast n' < asio.network n

instance (asio : NetworkV4 α) : Std.Symm asio.Apart := ⟨fun _ _ h => h.symm⟩

/-- The network has the highest addresses of all. -/
def NetworkV4.Highest (asio : NetworkV4 α) (networks : List α) (n : α) : Prop :=
  n ∈ networks ∧ ∀ n' ∈ networks, asio.network n' ≤ asio.network n

/-! ## Loading -/

/-- After a file has been loaded, the map has one entry more for every network. -/
lemma mem_of_loadLines {lines : List Bytes} {ipRangeMap ipRangeMap' : IpRangeMap}
    (h : loadLines asio lines ipRangeMap = some (true, ipRangeMap'))
    {e : AddressV4 × AddressV4Range} :
    e ∈ ipRangeMap'.entries ↔
      e ∈ ipRangeMap.entries ∨ ∃ n ∈ asio.ofLines lines, e = (asio.network n, asio.hosts n) := by
  induction lines generalizing ipRangeMap with
  | nil =>
      obtain ⟨-, rfl⟩ := Prod.mk.inj (Option.some.inj h)
      exact (or_iff_left fun ⟨n, hn, _⟩ => List.not_mem_nil hn).symm
  | cons line lines ih =>
      rw [loadLines] at h
      obtain ⟨n, hline, h⟩ := Option.bind_eq_some_iff.mp h
      simp only at h
      split at h
      · next ipRangeMap₁ hemplace =>
          rw [ih h, OrderedMap.mem_emplace hemplace, NetworkV4.ofLines_cons hline]
          simp only [List.mem_cons, exists_eq_or_imp]
          rw [or_assoc, or_left_comm]
      · cases (Prod.mk.inj (Option.some.inj h)).1

/-! ## Matching -/

/-- `ip_range_map` has the networks of a file. -/
def HasRanges (asio : NetworkV4 α) (networks : List α) (ipRangeMap : IpRangeMap) : Prop :=
  ∀ e, e ∈ ipRangeMap.entries ↔ ∃ n ∈ networks, e = (asio.network n, asio.hosts n)

lemma hasRanges_of_load {content : Bytes} {ipRangeMap : IpRangeMap}
    (h : loadIPRangeFromFile asio (some content) .empty = some (true, ipRangeMap)) :
    HasRanges asio (asio.ofLines (getLines content)) ipRangeMap := by
  intro e
  rw [mem_of_loadLines h]
  exact or_iff_right List.not_mem_nil

variable {networks : List α} {ipRangeMap : IpRangeMap} {ip : AddressV4} {n : α}

/-- What matches is a host of a network. -/
lemma HasRanges.exists_of_match (h : HasRanges asio networks ipRangeMap)
    (hmatch : matchIPRanges ipRangeMap ip = true) :
    ∃ n ∈ networks, (asio.hosts n).contains ip = true := by
  unfold matchIPRanges at hmatch
  simp only at hmatch
  split at hmatch
  · cases hmatch
  split at hmatch
  · cases hmatch
  · next hbegin =>
      obtain ⟨e, he, hget⟩ :=
        OrderedMap.exists_getElem?_upperBound_sub_one (Nat.pos_of_ne_zero hbegin)
      rw [hget] at hmatch
      obtain ⟨n, hn, rfl⟩ := (h e).mp he
      exact ⟨n, hn, hmatch⟩

/-- No other network begins between the first address of a network and one of its hosts. -/
lemma network_le_of_host (hlaw : asio.Lawful) (hapart : networks.Pairwise asio.Apart)
    (hn : n ∈ networks) (hin : (asio.hosts n).contains ip = true) {n' : α} (hn' : n' ∈ networks)
    (hle : asio.network n' ≤ ip) : asio.network n' ≤ asio.network n := by
  by_cases heq : n' = n
  · rw [heq]
  · obtain hbefore | hbehind := hapart.forall hn' hn heq
    · exact (hlaw.network_le n').trans hbefore.le
    · exact absurd (hle.trans (hlaw.hosts_le n ip hin).2) (not_le.mpr hbehind)

/-- A host of a network matches, unless no network lies behind it. -/
lemma HasRanges.match_host_iff (h : HasRanges asio networks ipRangeMap) (hlaw : asio.Lawful)
    (hapart : networks.Pairwise asio.Apart) (hn : n ∈ networks)
    (hin : (asio.hosts n).contains ip = true) :
    matchIPRanges ipRangeMap ip = true ↔ ¬ asio.Highest networks n := by
  have hfirst := (hlaw.hosts_le n ip hin).1
  have hend : ipRangeMap.upperBound ip = ipRangeMap.entries.length ↔
      asio.Highest networks n := by
    rw [OrderedMap.upperBound_eq_length_iff]
    constructor
    · intro hall
      refine ⟨hn, fun n' hn' => ?_⟩
      exact network_le_of_host hlaw hapart hn hin hn' (hall _ ((h _).mpr ⟨n', hn', rfl⟩))
    · rintro ⟨-, hhigh⟩ e he
      obtain ⟨n', hn', rfl⟩ := (h e).mp he
      exact (hhigh n' hn').trans hfirst
  have hlast : ∀ e ∈ ipRangeMap.entries, e.1 ≤ ip → e.1 ≤ asio.network n := by
    intro e he hle
    obtain ⟨n', hn', rfl⟩ := (h e).mp he
    exact network_le_of_host hlaw hapart hn hin hn' hle
  have hentry := (h (asio.network n, asio.hosts n)).mpr ⟨n, hn, rfl⟩
  obtain ⟨hpos, hget⟩ := OrderedMap.getElem?_upperBound_sub_one hentry hfirst hlast
  rw [← hend]
  unfold matchIPRanges
  simp only
  split
  · next hlength => exact iff_of_false (by decide) (not_not_intro hlength)
  · next hlength =>
      rw [if_neg (Nat.ne_of_gt hpos), hget]
      exact iff_of_true hin hlength

/-- An address matches if it is a host of a network that is not the last. -/
lemma HasRanges.match_iff (h : HasRanges asio networks ipRangeMap) (hlaw : asio.Lawful)
    (hapart : networks.Pairwise asio.Apart) :
    matchIPRanges ipRangeMap ip = true ↔
      ∃ n ∈ networks, ¬ asio.Highest networks n ∧ (asio.hosts n).contains ip = true := by
  constructor
  · intro hmatch
    obtain ⟨n, hn, hin⟩ := h.exists_of_match hmatch
    exact ⟨n, hn, (h.match_host_iff hlaw hapart hn hin).mp hmatch, hin⟩
  · rintro ⟨n, hn, hlower, hin⟩
    exact (h.match_host_iff hlaw hapart hn hin).mpr hlower

/-- **Which responses of the default name server are believed.**  For answers that report the
records of a response, and the map of a file with disjoint networks: some answer matches exactly if
the address of some A record is a host of a network that is not the one with the highest
addresses. -/
theorem matchedIpRange_iff {answers : List DnsAnswer} {records : List Record}
    (h : HasRanges asio networks ipRangeMap) (hlaw : asio.Lawful)
    (hapart : networks.Pairwise asio.Apart)
    (hanswers : List.Forall₂ DnsAnswer.Reports answers records) :
    matchedIpRange ipRangeMap answers = true ↔
      ∃ r ∈ records, r.type = dnsAnsTypeA ∧ ∃ n ∈ networks, ¬ asio.Highest networks n ∧
        (asio.hosts n).contains (toUint r.data) = true := by
  have hone : ∀ {ans : DnsAnswer} {r : Record}, ans.Reports r →
      ((ans.isV4 && matchIPRanges ipRangeMap (toUint ans.v4Ip)) = true ↔
        r.type = dnsAnsTypeA ∧ ∃ n ∈ networks, ¬ asio.Highest networks n ∧
          (asio.hosts n).contains (toUint r.data) = true) := by
    rintro ans r ⟨htype, hv4, -⟩
    rw [Bool.and_eq_true, DnsAnswer.isV4, decide_eq_true_iff, htype, h.match_iff hlaw hapart]
    refine and_congr_right fun ha => ?_
    rw [hv4 ha]
  induction hanswers with
  | nil => simp [matchedIpRange]
  | cons hreports hrest ih =>
      rw [matchedIpRange, List.any_cons, Bool.or_eq_true, hone hreports]
      simp only [List.mem_cons, exists_eq_or_imp]
      exact or_congr_right ih

/-- **What `MatchIPRanges` matches.**  For every file of pairwise disjoint networks that
`LoadIPRangeFromFile` loads, and every address: the address matches exactly if it is a host of one
of the networks, if and only if it is no host of the network with the highest addresses. -/
theorem matchIPRanges_iff {α : Type} (asio : NetworkV4 α) (hlaw : asio.Lawful) (content : Bytes)
    (ipRangeMap : IpRangeMap)
    (hload : loadIPRangeFromFile asio (some content) .empty = some (true, ipRangeMap))
    (hapart : (asio.ofLines (getLines content)).Pairwise asio.Apart) (ip : AddressV4) :
    (matchIPRanges ipRangeMap ip = true ↔
        ∃ n ∈ asio.ofLines (getLines content), (asio.hosts n).contains ip = true) ↔
      ¬ ∃ n, asio.Highest (asio.ofLines (getLines content)) n ∧
        (asio.hosts n).contains ip = true := by
  have hranges := hasRanges_of_load hload
  constructor
  · rintro hiff ⟨n, hhigh, hin⟩
    have hmatch := hiff.mpr ⟨n, hhigh.1, hin⟩
    exact (hranges.match_host_iff hlaw hapart hhigh.1 hin).mp hmatch hhigh
  · intro hnot
    refine ⟨hranges.exists_of_match, ?_⟩
    rintro ⟨n, hn, hin⟩
    rw [hranges.match_host_iff hlaw hapart hn hin]
    exact fun hhigh => hnot ⟨n, hhigh, hin⟩

/-! ## Networks of asio -/

/-- A network: its first address and the number of its addresses. -/
structure Cidr where
  first : ℕ
  size : ℕ
  pos : 0 < size
  inside : first + size ≤ 2 ^ 32
  deriving DecidableEq

/-- The network of an address and a length of the netmask. -/
def Cidr.ofPrefix (address netmask : ℕ) (h : address < 2 ^ 32) (hle : netmask ≤ 32) : Cidr where
  first := address / 2 ^ (32 - netmask) * 2 ^ (32 - netmask)
  size := 2 ^ (32 - netmask)
  pos := Nat.two_pow_pos _
  inside := by
    have hsplit : 2 ^ (32 - netmask) * 2 ^ netmask = 2 ^ 32 := by
      rw [← pow_add, Nat.sub_add_cancel hle]
    have hlt : address / 2 ^ (32 - netmask) < 2 ^ netmask :=
      Nat.div_lt_of_lt_mul (by rwa [hsplit])
    calc address / 2 ^ (32 - netmask) * 2 ^ (32 - netmask) + 2 ^ (32 - netmask)
        = (address / 2 ^ (32 - netmask) + 1) * 2 ^ (32 - netmask) := by rw [Nat.succ_mul]
      _ ≤ 2 ^ netmask * 2 ^ (32 - netmask) := Nat.mul_le_mul_right _ hlt
      _ = 2 ^ 32 := by rw [Nat.mul_comm, hsplit]

/-- Four numbers with dots between them, a slash and the length of the netmask. -/
def Cidr.parse (text : Bytes) : Option Cidr := do
  match text.splitOn 47 with
  | [address, netmask] =>
      match (address.splitOn 46).mapM simpleAtoi, simpleAtoi netmask with
      | some [a, b, c, d], some netmask =>
          if h : a < 256 ∧ b < 256 ∧ c < 256 ∧ d < 256 ∧ netmask ≤ 32 then
            some (.ofPrefix (((a * 256 + b) * 256 + c) * 256 + d) netmask (by omega) h.2.2.2.2)
          else none
      | _, _ => none
  | _ => none

/-- Networks as asio has them: the first and the last address are no hosts, but the only address of
a network is one. -/
def cidrNetworks : NetworkV4 Cidr where
  makeNetworkV4 := Cidr.parse
  network := fun n => ⟨n.first, by have := n.pos; have := n.inside; omega⟩
  broadcast := fun n => ⟨n.first + n.size - 1, by have := n.pos; have := n.inside; omega⟩
  hosts := fun n =>
    if n.size = 1 then ⟨Fin.ofNat _ n.first, Fin.ofNat _ (n.first + 1)⟩
    else ⟨Fin.ofNat _ (n.first + 1), Fin.ofNat _ (n.first + n.size - 1)⟩

lemma contains_iff (range : AddressV4Range) (ip : AddressV4) :
    range.contains ip = true ↔ range.first.val ≤ ip.val ∧ ip.val < range.last.val := by
  rw [AddressV4Range.contains, Bool.and_eq_true, decide_eq_true_iff, decide_eq_true_iff]
  rfl

lemma cidrNetworks_lawful : cidrNetworks.Lawful := by
  constructor
  · intro n
    have hpos := n.pos
    show n.first ≤ n.first + n.size - 1
    omega
  · intro n ip hin
    have hpos := n.pos
    have hinside := n.inside
    have hip := ip.isLt
    rw [contains_iff] at hin
    simp only [cidrNetworks] at hin
    show n.first ≤ ip.val ∧ ip.val ≤ n.first + n.size - 1
    split at hin
    · simp only [Fin.val_ofNat] at hin
      omega
    · simp only [Fin.val_ofNat] at hin
      omega

/-- The networks `10.0.0.0/8` and `9.0.0.0/8`. -/
def ipRangeNetworks : List Cidr :=
  [.ofPrefix (10 * 2 ^ 24) 8 (by decide) (by decide),
    .ofPrefix (9 * 2 ^ 24) 8 (by decide) (by decide)]

/-- A file with these networks. -/
def ipRangeFile : Bytes := ascii "10.0.0.0/8\n9.0.0.0/8\n".toList

/-- `ip_range_map` after the file has been loaded. -/
def ipRanges : IpRangeMap :=
  ⟨[(150994944, ⟨150994945, 167772159⟩), (167772160, ⟨167772161, 184549375⟩)], by decide⟩

lemma getLines_ipRangeFile : getLines ipRangeFile =
    [ascii "10.0.0.0/8".toList, ascii "9.0.0.0/8".toList] := by decide

lemma parse_ten : cidrNetworks.makeNetworkV4 (stripAsciiWhitespace (ascii "10.0.0.0/8".toList)) =
    some (.ofPrefix (10 * 2 ^ 24) 8 (by decide) (by decide)) := by decide +kernel

lemma parse_nine : cidrNetworks.makeNetworkV4 (stripAsciiWhitespace (ascii "9.0.0.0/8".toList)) =
    some (.ofPrefix (9 * 2 ^ 24) 8 (by decide) (by decide)) := by decide +kernel

lemma load_ipRangeFile :
    loadIPRangeFromFile cidrNetworks (some ipRangeFile) .empty = some (true, ipRanges) := by
  rw [loadIPRangeFromFile, getLines_ipRangeFile]
  simp only [loadLines, parse_ten, parse_nine]
  rfl

lemma ofLines_ipRangeFile : cidrNetworks.ofLines (getLines ipRangeFile) = ipRangeNetworks := by
  rw [getLines_ipRangeFile, NetworkV4.ofLines_cons parse_ten, NetworkV4.ofLines_cons parse_nine]
  rfl

lemma apart_ipRangeFile :
    (cidrNetworks.ofLines (getLines ipRangeFile)).Pairwise cidrNetworks.Apart := by
  rw [ofLines_ipRangeFile]
  exact List.pairwise_pair.mpr (.inr (by decide))

/-- `9.0.0.1` matches, as a host of the lower network. -/
theorem matchIPRanges_lower : matchIPRanges ipRanges 150994945 = true := by
  have hiff := matchIPRanges_iff cidrNetworks cidrNetworks_lawful ipRangeFile ipRanges
    load_ipRangeFile apart_ipRangeFile 150994945
  rw [ofLines_ipRangeFile] at hiff
  refine (hiff.mpr ?_).mpr ⟨_, List.mem_cons_of_mem _ List.mem_cons_self, by decide⟩
  rintro ⟨n, ⟨hn, hhigh⟩, hin⟩
  obtain rfl | hn := List.mem_cons.mp hn
  · exact absurd hin (by decide)
  · obtain rfl := List.mem_singleton.mp hn
    exact absurd (hhigh _ List.mem_cons_self) (by decide)

/-- `10.0.0.1` is a host of the higher network and does not match. -/
theorem highest_network_not_matched :
    cidrNetworks.Lawful ∧
      loadIPRangeFromFile cidrNetworks (some ipRangeFile) .empty = some (true, ipRanges) ∧
      (cidrNetworks.ofLines (getLines ipRangeFile)).Pairwise cidrNetworks.Apart ∧
      (∃ n ∈ cidrNetworks.ofLines (getLines ipRangeFile),
        (cidrNetworks.hosts n).contains 167772161 = true) ∧
      matchIPRanges ipRanges 167772161 = false := by
  refine ⟨cidrNetworks_lawful, load_ipRangeFile, apart_ipRangeFile, ?_, by decide⟩
  rw [ofLines_ipRangeFile]
  exact ⟨_, List.mem_cons_self, by decide⟩

end Snova
