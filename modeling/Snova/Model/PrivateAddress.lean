import Snova.Framework.Reads
import Snova.Model.DnsOptions

/-!
# Private addresses

`is_private_address` (`snova/util/net_helper.cc`).  The loop over `g_private_networks` goes up to
`sizeof(g_private_networks)`, which is the size of the array in bytes, and reads the ranges from a
memory: the first three cells are the array, and what stands behind it is not known.
-/

namespace Snova

/-- `asio::ip::address`. -/
inductive IpAddress
  | v4 (address : AddressV4)
  | v6 (bytes : Bytes)

/-- `address_v4::is_loopback`. -/
def isLoopback (address : AddressV4) : Bool := address.val / 2 ^ 24 = 127

/-- `network_v4::hosts` of a network with its first address and the number of its addresses: all of
them but the first and the last. -/
def hostsOf (network size : ℕ) : AddressV4Range :=
  ⟨Fin.ofNat _ (network + 1), Fin.ofNat _ (network + size - 1)⟩

/-- `g_private_networks`: the hosts of `10.0.0.0/8`, `172.16.0.0/12` and `192.168.0.0/16`. -/
def gPrivateNetworks : List AddressV4Range :=
  [hostsOf (10 * 2 ^ 24) (2 ^ 24), hostsOf (172 * 2 ^ 24 + 16 * 2 ^ 16) (2 ^ 20),
    hostsOf (192 * 2 ^ 24 + 168 * 2 ^ 16) (2 ^ 16)]

/-- The loop of `is_private_address` from index `i` on, for `left` more rounds. -/
def privateNetworksLoop (addr : AddressV4) : ℕ → ℕ → Reads ℕ AddressV4Range Bool
  | 0, _ => return false
  | left + 1, i => do
      let range ← Reads.get i
      if range.contains addr then return true else privateNetworksLoop addr left (i + 1)

/-- `is_private_address`; `rangeSize` is `sizeof(address_v4_range)`. -/
def isPrivateAddress (rangeSize : ℕ) : IpAddress → Reads ℕ AddressV4Range Bool
  | .v6 _ => return false
  | .v4 v4Addr =>
      if isLoopback v4Addr then return true
      else privateNetworksLoop v4Addr (gPrivateNetworks.length * rangeSize) 0

end Snova
