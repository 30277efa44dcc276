import Snova.Framework.Reads
import Snova.Framework.Bytes

/-!
# The server name in a ClientHello, read by position

`parse_sni` (`snova/util/sni.cc`) with its reads: `data` is where the bytes begin in the memory and
`pos` runs from there.  A call returns the code and the host name as it leaves it.  The loops go on
while `pos` is before the end, and each round moves it on, so they end on every memory.
-/

namespace Snova

namespace SniReads

/-- A length of two bytes at `i`. -/
def readShort (i : ℕ) : Reads ℕ UInt8 ℕ := do
  let hi ← Reads.get i
  let lo ← Reads.get (i + 1)
  return hi.toNat * 256 + lo.toNat

/-- The loop of `parse_server_name_extension`. -/
def serverNameLoop (data dataLen : ℕ) (hostname : Bytes) (pos : ℕ) : Reads ℕ UInt8 (ℤ × Bytes) :=
  if pos + 3 < dataLen then do
    let len ← readShort (data + pos + 1)
    if dataLen < pos + 3 + len then return (-5, hostname)
    else
      let nameType ← Reads.get (data + pos)
      if nameType = 0 then
        let name ← Reads.getMany (List.range' (data + pos + 3) len)
        return (0, name)
      else serverNameLoop data dataLen hostname (pos + (3 + len))
  else if pos ≠ dataLen then return (-5, hostname)
  else return (-2, hostname)
termination_by dataLen - pos

/-- `parse_server_name_extension`. -/
def parseServerNameExtension (data dataLen : ℕ) (hostname : Bytes) : Reads ℕ UInt8 (ℤ × Bytes) :=
  serverNameLoop data dataLen hostname 2

/-- `data[i] == 0x00 && data[i + 1] == 0x00`. -/
def isServerName (i : ℕ) : Reads ℕ UInt8 Bool := do
  let type₁ ← Reads.get i
  if type₁ ≠ 0 then return false
  else
    let type₀ ← Reads.get (i + 1)
    return type₀ = 0

/-- The loop of `parse_extensions`. -/
def extensionLoop (data dataLen : ℕ) (hostname : Bytes) (pos : ℕ) : Reads ℕ UInt8 (ℤ × Bytes) :=
  if pos + 4 ≤ dataLen then do
    let len ← readShort (data + pos + 2)
    let found ← isServerName (data + pos)
    if found then
      if dataLen < pos + 4 + len then return (-5, hostname)
      else parseServerNameExtension (data + pos + 4) len hostname
    else extensionLoop data dataLen hostname (pos + (4 + len))
  else if pos ≠ dataLen then return (-5, hostname)
  else return (-2, hostname)
termination_by dataLen - pos

/-- `parse_extensions`. -/
def parseExtensions (data dataLen : ℕ) (hostname : Bytes) : Reads ℕ UInt8 (ℤ × Bytes) :=
  extensionLoop data dataLen hostname 0

/-- `parse_tls_header` behind the checks of the record: the handshake at `pos`, in a record that
ends at `dataLen`. -/
def parseHandshake (data dataLen : ℕ) (major minor : UInt8) (hostname : Bytes) (pos : ℕ) :
    Reads ℕ UInt8 (ℤ × Bytes) :=
  if dataLen < pos + 1 then return (-5, hostname)
  else do
    let handshakeType ← Reads.get (data + pos)
    if handshakeType ≠ 1 then return (-5, hostname)
    else
      let pos := pos + 38
      if dataLen < pos + 1 then return (-5, hostname)
      else
        let len ← Reads.get (data + pos)
        let pos := pos + (1 + len.toNat)
        if dataLen < pos + 2 then return (-5, hostname)
        else
          let len ← readShort (data + pos)
          let pos := pos + (2 + len)
          if dataLen < pos + 1 then return (-5, hostname)
          else
            let len ← Reads.get (data + pos)
            let pos := pos + (1 + len.toNat)
            if pos = dataLen ∧ major = 3 ∧ minor = 0 then return (-2, hostname)
            else if dataLen < pos + 2 then return (-5, hostname)
            else
              let len ← readShort (data + pos)
              let pos := pos + 2
              if dataLen < pos + len then return (-5, hostname)
              else parseExtensions (data + pos) len hostname

/-- `data[0] & 0x80 && data[2] == 1`. -/
def isSsl2Hello (data : ℕ) : Reads ℕ UInt8 Bool := do
  let first ← Reads.get data
  if first < 128 then return false
  else
    let third ← Reads.get (data + 2)
    return third = 1

/-- `parse_tls_header`. -/
def parseTlsHeader (data dataLen : ℕ) (hostname : Bytes) : Reads ℕ UInt8 (ℤ × Bytes) :=
  if dataLen < 5 then return (-1, hostname)
  else do
    let ssl2 ← isSsl2Hello data
    if ssl2 then return (-2, hostname)
    else
      let contentType ← Reads.get data
      if contentType ≠ 0x16 then return (-5, hostname)
      else
        let major ← Reads.get (data + 1)
        let minor ← Reads.get (data + 2)
        if major < 3 then return (-2, hostname)
        else
          let len ← readShort (data + 3)
          let len := len + 5
          let dataLen := min dataLen len
          if dataLen < len then return (-1, hostname)
          else parseHandshake data dataLen major minor hostname 5

/-- `parse_sni`. -/
def parseSni (data dataLen : ℕ) (hostname : Bytes) : Reads ℕ UInt8 (ℤ × Bytes) :=
  parseTlsHeader data dataLen hostname

end SniReads

end Snova
