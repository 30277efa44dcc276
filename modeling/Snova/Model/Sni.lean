import Snova.Framework.Bytes

/-!
# The server name in a ClientHello

`parse_sni` (`snova/util/sni.cc`).  The loops over extensions and over server names keep a position
that may run behind the end of the data; here they consume the data instead, and `skip` is what
they still have to pass over.
-/

namespace Snova

/-- `data[pos]`. -/
def byteAt (data : Bytes) (pos : ℕ) : ℕ := (data.getD pos 0).toNat

/-- A length of two bytes at `pos`. -/
def shortAt (data : Bytes) (pos : ℕ) : ℕ := byteAt data pos * 256 + byteAt data (pos + 1)

/-- The loop of `parse_server_name_extension`. -/
def parseServerNames : ℕ → Bytes → Except ℤ Bytes
  | skip + 1, _ :: rest => parseServerNames skip rest
  | _ + 1, [] => .error (-5)
  | 0, nameType :: hi :: lo :: next :: rest =>
      let len := hi.toNat * 256 + lo.toNat
      if (next :: rest).length < len then .error (-5)
      else if nameType = 0 then .ok ((next :: rest).take len)
      else parseServerNames len (next :: rest)
  | 0, [] => .error (-2)
  | 0, _ => .error (-5)

/-- `parse_server_name_extension`. -/
def parseServerNameExtension (data : Bytes) : Except ℤ Bytes := parseServerNames 2 data

/-- `parse_extensions`. -/
def parseExtensions : ℕ → Bytes → Except ℤ Bytes
  | skip + 1, _ :: rest => parseExtensions skip rest
  | _ + 1, [] => .error (-5)
  | 0, type₁ :: type₀ :: hi :: lo :: rest =>
      let len := hi.toNat * 256 + lo.toNat
      if type₁ = 0 ∧ type₀ = 0 then
        if rest.length < len then .error (-5) else parseServerNameExtension (rest.take len)
      else parseExtensions len rest
  | 0, [] => .error (-2)
  | 0, _ => .error (-5)

/-- `parse_tls_header`. -/
def parseTlsHeader (data : Bytes) : Except ℤ Bytes :=
  if data.length < 5 then .error (-1)
  else if 128 ≤ byteAt data 0 ∧ byteAt data 2 = 1 then .error (-2)
  else if byteAt data 0 ≠ 0x16 then .error (-5)
  else if byteAt data 1 < 3 then .error (-2)
  else
    -- the record has to be complete, and nothing is read behind it
    let dataLen := min data.length (shortAt data 3 + 5)
    if dataLen < shortAt data 3 + 5 then .error (-1)
    else if dataLen < 5 + 1 then .error (-5)
    else if byteAt data 5 ≠ 1 then .error (-5)
    else
      let sessionId := 5 + 38
      if dataLen < sessionId + 1 then .error (-5)
      else
        let cipherSuites := sessionId + (1 + byteAt data sessionId)
        if dataLen < cipherSuites + 2 then .error (-5)
        else
          let compression := cipherSuites + (2 + shortAt data cipherSuites)
          if dataLen < compression + 1 then .error (-5)
          else
            let extensions := compression + (1 + byteAt data compression)
            if extensions = dataLen ∧ byteAt data 1 = 3 ∧ byteAt data 2 = 0 then .error (-2)
            else if dataLen < extensions + 2 then .error (-5)
            else
              let len := shortAt data extensions
              if dataLen < extensions + 2 + len then .error (-5)
              else parseExtensions 0 ((data.drop (extensions + 2)).take len)

/-- `parse_sni`: the server name, or the error code. -/
def parseSni (data : Bytes) : Except ℤ Bytes := parseTlsHeader data

end Snova
