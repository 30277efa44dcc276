import Snova.Model.HttpProxy
import Snova.Model.OpenTunnel

/-!
# Addresses and tunnel options in text

`NetAddress::Parse` and `NetAddress::String` (`snova/util/address.cc`) with all parts of an address,
and `LocalTunnelOption::Parse` and `RemoteTunnelOption::Parse` (`snova/util/tunnel_opt.cc`).
-/

namespace Snova

namespace Address

/-- `NetAddress`. -/
structure NetAddress where
  schema : Bytes
  host : Bytes
  port : UInt16
  path : Bytes
  deriving DecidableEq

/-- `absl::StrSplit` by a text.  The first argument is what has to be passed over still of a
delimiter that has been found. -/
def strSplit (delim : Bytes) : ℕ → Bytes → List Bytes
  | _, [] => [[]]
  | skip + 1, _ :: rest => strSplit delim skip rest
  | 0, b :: rest =>
      if delim.isPrefixOf (b :: rest) then [] :: strSplit delim (delim.length - 1) rest
      else (strSplit delim 0 rest).modifyHead (b :: ·)

/-- `"://"`. -/
def schemaEnd : Bytes := [58, 47, 47]

/-- The schema and the rest of an address. -/
def splitSchema (addr : Bytes) : Bytes × Bytes :=
  match strSplit schemaEnd 0 addr with
  | [schema, url] => (schema, url)
  | _ => ([], addr)

/-- The part with the host and the port, and the path. -/
def splitPath (urlPart : Bytes) : Bytes × Bytes :=
  match find [47] urlPart with
  | some pos => (urlPart.take pos, urlPart.drop (pos + 1))
  | none => (urlPart, [])

/-- The port of a schema if an address has none. -/
def defaultPort (schema : Bytes) : Option UInt16 :=
  if schema = ascii "https".toList ∨ schema = ascii "tls".toList ∨ schema = ascii "doh".toList then
    some 443
  else if schema = ascii "http".toList then some 80
  else if schema = ascii "dns".toList then some 53
  else if schema = ascii "dot".toList then some 853
  else none

/-- `NetAddress::Parse`; `none` for `invalid_argument`. -/
def NetAddress.parse (addr : Bytes) : Option NetAddress := do
  let (schema, urlPart) := splitSchema addr
  let (hostPortPart, path) := splitPath urlPart
  let (hostView, port) ← hostAndPort hostPortPart
  let host := if hostView = [] then ascii "0.0.0.0".toList else hostView
  let port := if port = 0 then (defaultPort schema).getD port else port
  some ⟨schema, host, port, path⟩

/-- `NetAddress::String`. -/
def NetAddress.string (a : NetAddress) : Bytes :=
  (if a.schema = [] then [] else a.schema ++ schemaEnd) ++ (a.host ++ 58 ::
    ((Nat.toDigits 10 a.port.toNat).map fun c => UInt8.ofNat c.toNat) ++
    if a.path = [] then [] else 47 :: a.path)

end Address

/-! ## Tunnel options -/

/-- `LocalTunnelOption`. -/
structure LocalTunnelOption where
  remoteHost : Bytes
  remotePort : UInt16
  localPort : UInt16

/-- `parse_tunnel_opt`; `none` for `false`. -/
def parseTunnelOpt (addr : Bytes) : Option (UInt16 × Bytes × UInt16) :=
  match addr.splitOn 58 with
  | [part₀, host, part₂] => do
      let port₀ ← simpleAtoi part₀
      let port₂ ← simpleAtoi part₂
      some (UInt16.ofNat port₀, host, UInt16.ofNat port₂)
  | _ => none

/-- `LocalTunnelOption::Parse`: what it returns and the option it leaves. -/
def LocalTunnelOption.parse (addr : Bytes) (opt : LocalTunnelOption) : Bool × LocalTunnelOption :=
  match parseTunnelOpt addr with
  | none => (false, opt)
  | some (localPort, remoteHost, remotePort) => (true, ⟨remoteHost, remotePort, localPort⟩)

/-- `RemoteTunnelOption::Parse`: what it returns and the option it leaves. -/
def RemoteTunnelOption.parse (addr : Bytes) (opt : RemoteTunnelOption) :
    Bool × RemoteTunnelOption :=
  match parseTunnelOpt addr with
  | none => (false, opt)
  | some (remotePort, localHost, localPort) => (true, ⟨remotePort, localHost, localPort⟩)

end Snova
