import Snova.Framework.OrderedMap
import Snova.Framework.Bytes
import Snova.Model.DnsParse

/-!
# IP ranges

`DNSOptions::LoadIPRangeFromFile` and `DNSOptions::MatchIPRanges` (`snova/util/dns_options.cc`).
The file has one IPv4 network a line, and `ip_range_map` gets the host addresses of each under the
first address of the network.  `default_ns_loop` (`snova/server/dns_proxy_server.cc`) believes a
response with an address in one of the ranges.

The networks themselves are those of asio: `NetworkV4` has what the code uses of them.
-/

namespace Snova

/-- A `uint32_t` address. -/
abbrev AddressV4 : Type := Fin (2 ^ 32)

instance neZero_addressV4 : NeZero (2 ^ 32) := ⟨by decide⟩

/-- `address_v4_range`: from `first` on, up to but not including `last`. -/
structure AddressV4Range where
  first : AddressV4
  last : AddressV4
  deriving DecidableEq

/-- `address_v4_range::find` does not give `end()`. -/
def AddressV4Range.contains (range : AddressV4Range) (ip : AddressV4) : Bool :=
  range.first ≤ ip && ip < range.last

/-- `asio::ip::network_v4`. -/
structure NetworkV4 (α : Type) where
  /-- `make_network_v4`; `none` where it throws. -/
  makeNetworkV4 : Bytes → Option α
  /-- `network().to_uint()`, the first address. -/
  network : α → AddressV4
  /-- `broadcast().to_uint()`, the last address. -/
  broadcast : α → AddressV4
  hosts : α → AddressV4Range

/-- `ip_range_map`. -/
abbrev IpRangeMap : Type := OrderedMap AddressV4 AddressV4Range

/-- The lines that `std::getline` gives: behind the last line feed there is one only if there is
something. -/
def getLines (content : Bytes) : List Bytes :=
  let lines := content.splitOn 10
  if lines.getLast? = some [] then lines.dropLast else lines

variable {α : Type} (asio : NetworkV4 α)

/-- The loop of `LoadIPRangeFromFile`: the result and `ip_range_map`, or `none` for an
exception. -/
def loadLines : List Bytes → IpRangeMap → Option (Bool × IpRangeMap)
  | [], ipRangeMap => some (true, ipRangeMap)
  | line :: lines, ipRangeMap => do
      let v4Network ← asio.makeNetworkV4 (stripAsciiWhitespace line)
      let r := asio.hosts v4Network
      match ipRangeMap.emplace (asio.network v4Network) r with
      | (ipRangeMap, true) => loadLines lines ipRangeMap
      | (ipRangeMap, false) => some (false, ipRangeMap)

/-- `LoadIPRangeFromFile`, for the contents of the file if it can be opened. -/
def loadIPRangeFromFile (file : Option Bytes) (ipRangeMap : IpRangeMap) :
    Option (Bool × IpRangeMap) :=
  match file with
  | none => some (false, ipRangeMap)
  | some content => loadLines asio (getLines content) ipRangeMap

/-- `MatchIPRanges`. -/
def matchIPRanges (ipRangeMap : IpRangeMap) (ip : AddressV4) : Bool :=
  let found := ipRangeMap.upperBound ip
  if found = ipRangeMap.entries.length then false
  else if found = 0 then false
  else match ipRangeMap.entries[found - 1]? with
    | some (_, range) => range.contains ip
    | none => false

/-- `address_v4::to_uint`, of an address as its four bytes. -/
def toUint (address : Bytes) : AddressV4 := Fin.ofNat _ (ofBE address)

/-- `matched_iprange` in `default_ns_loop`. -/
def matchedIpRange (ipRangeMap : IpRangeMap) (answers : List DnsAnswer) : Bool :=
  answers.any fun ans => ans.isV4 && matchIPRanges ipRangeMap (toUint ans.v4Ip)

end Snova
