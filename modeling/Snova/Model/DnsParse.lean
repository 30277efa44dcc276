import Snova.Framework.Reads
import Snova.Model.TrustedNs

/-!
# Parsing DNS messages

`dns_parse_name`, `skip_name` and `dns_parse_answers` (`snova/util/net_helper.cc`).  They are given
a pointer into a receive buffer and a length; a message is therefore a memory, whose cell `i` is
the byte at `payload + i`, and the functions are computations that read it.  Behind the length
stands what earlier datagrams left in the buffer.  Offsets and lengths are `int`s in the code and
integers here.

`dns_parse_name` calls itself for a compression pointer.  `depth` bounds the calls: `none` is a
chain of calls that is not finished, and a result is a result at every larger depth as well.  The
loops need no such bound, as they go through the bytes of the message from left to right; the
counter in their definitions is the number of bytes that are left.
-/

namespace Snova

/-! ## Names -/

/-- `MAX_STR_LEN`. -/
def maxStrLen : ℕ := 256

/-- `(b & 0xc0) == 0xc0`. -/
def isPointer (b : UInt8) : Bool := b &&& 0xc0 = 0xc0

/-- The addresses of `n` bytes from `i` on. -/
def cellsFrom (i : ℤ) (n : ℕ) : List ℤ := (List.range n).map fun k : ℕ => i + (k : ℤ)

/-- A label, copied behind what `tmp` holds already. -/
def appendLabel (tmp label : Bytes) : Bytes := (if tmp = [] then tmp else tmp ++ [46]) ++ label

/-- How the loop of `dns_parse_name` ends, and where. -/
inductive NameEnd
  -- `return -1`
  | invalid
  | terminator (p : ℤ) (tmp : Bytes)
  | pointer (p : ℤ) (tmp : Bytes)
  deriving DecidableEq

/-- The loop of `dns_parse_name` from `p` on; `tmp` is the part of the temporary before `dest`. -/
def nameLoop (endPos : ℤ) : ℕ → ℤ → Bytes → Reads ℤ UInt8 NameEnd
  | 0, _, _ => return .invalid
  | left + 1, p, tmp =>
      if p < endPos then do
        let b ← Reads.get p
        let dotLen := b.toNat
        if isPointer b then return .pointer p tmp
        else if endPos ≤ p + dotLen then return .invalid
        else if dotLen = 0 then return .terminator p tmp
        else if maxStrLen ≤ tmp.length + dotLen + 1 then return .invalid
        else do
          let label ← Reads.getMany (cellsFrom (p + 1) dotLen)
          nameLoop endPos left (p + 1 + dotLen) (appendLabel tmp label)
      else return .invalid

/-- `if (p > pstart) name = std::string(tmp, p - pstart - 1)`. -/
def assignName (pstart p : ℤ) (tmp name : Bytes) : Bytes :=
  if pstart < p then tmp.take (p - pstart - 1).toNat else name

/-- The loop of a call at an offset. -/
def nameLoopAt (payloadOffset payloadLen : ℤ) : Reads ℤ UInt8 NameEnd :=
  nameLoop payloadLen (payloadLen - payloadOffset).toNat payloadOffset []

/-- `dns_parse_name`: the return code, and `name`. -/
def dnsParseName : ℕ → ℤ → ℤ → Bytes → Reads ℤ UInt8 (Option (ℤ × Bytes))
  | 0, _, _, _ => return none
  | depth + 1, payloadOffset, payloadLen, name =>
      if payloadOffset = 0 ∨ payloadLen ≤ payloadOffset then return some (-1, name)
      else do
        match ← nameLoopAt payloadOffset payloadLen with
        | .invalid => return some (-1, name)
        | .terminator p tmp => return some (0, assignName payloadOffset p tmp name)
        | .pointer p tmp => do
            -- The low byte of the pointer alone is the offset.
            let subOffset ← Reads.get (p + 1)
            match ← dnsParseName depth subOffset.toNat payloadLen [] with
            | none => return none
            | some (_, subName) =>
                return some (0, assignName payloadOffset p tmp name ++ 46 :: subName)

/-- The loop of `skip_name` from `p` on. -/
def skipNameLoop (ptr endPos : ℤ) : ℕ → ℤ → ℤ → Reads ℤ UInt8 ℤ
  | 0, _, _ => return -1
  | left + 1, p, remaining =>
      if p < endPos then do
        let b ← Reads.get p
        let dotLen : ℤ := b.toNat
        if remaining ≤ dotLen then return -1
        else if dotLen = 0 then return p - ptr + 1
        else skipNameLoop ptr endPos left (p + (dotLen + 1)) (remaining - (dotLen + 1))
      else return -1

/-- `skip_name`: the length of the encoding of a name, or -1. -/
def skipName (ptr remaining : ℤ) : Reads ℤ UInt8 ℤ :=
  skipNameLoop ptr (ptr + remaining) remaining.toNat ptr remaining

/-- The beginning of `handle_dns_query` (`snova/server/dns_proxy_server.cc`): whether the name of
the query contains one of `trusted_ns_domains`. -/
def matchTrustedDomains (depth : ℕ) (trustedNsDomains : List Bytes) (queryLen : ℤ) :
    Reads ℤ UInt8 (Option Bool) := do
  match ← dnsParseName depth 12 queryLen [] with
  | none => return none
  | some (parseRc, parsedDomain) =>
      if parseRc ≠ 0 then return some false
      else return some (trustedNsDomains.any fun domain => (find domain parsedDomain).isSome)

/-! ## Answers -/

/-- `READ_U16`. -/
def readU16 (i : ℤ) : Reads ℤ UInt8 ℕ := do
  let hi ← Reads.get i
  let lo ← Reads.get (i + 1)
  return 256 * hi.toNat + lo.toNat

def dnsAnsTypeA : ℕ := 1
def dnsAnsTypeCname : ℕ := 5
def dnsAnsTypeAaaa : ℕ := 28

/-- `kDNSAnswerHeaderSize`. -/
def kDNSAnswerHeaderSize : ℕ := 12

/-- `DNSAnswer`, with the bytes of its addresses.  `ttl1` and `ttl2` are never set. -/
structure DnsAnswer where
  nm : ℕ
  type : ℕ
  cls : ℕ
  datalen : ℕ
  v4Ip : Bytes := [0, 0, 0, 0]
  v6Ip : Bytes := List.replicate 16 0
  deriving DecidableEq

/-- `DNSAnswer::IsV4`. -/
def DnsAnswer.isV4 (ans : DnsAnswer) : Bool := ans.type = dnsAnsTypeA

/-- The questions are skipped: the offset behind them, or `none` for -1. -/
def questionLoop : ℕ → ℤ → ℤ → Reads ℤ UInt8 (Option ℤ)
  | 0, parseOffset, _ => return some parseOffset
  | questionNum + 1, parseOffset, parseRemaining => do
      let nameLen ← skipName parseOffset parseRemaining
      if nameLen ≤ 0 then return none
      else if parseRemaining - (nameLen + 4) < 0 then return none
      else questionLoop questionNum (parseOffset + (nameLen + 4)) (parseRemaining - (nameLen + 4))

/-- The `switch` over the type of an answer whose data is at `pos`; `none` for -1. -/
def answerData (ans : DnsAnswer) (pos : ℤ) : Reads ℤ UInt8 (Option DnsAnswer) :=
  if ans.type = dnsAnsTypeCname then return some ans
  else if ans.type = dnsAnsTypeA then do
    let ip ← Reads.getMany (cellsFrom pos 4)
    return some { ans with v4Ip := ip }
  else if ans.type = dnsAnsTypeAaaa then do
    let ip ← Reads.getMany (cellsFrom pos 16)
    return some { ans with v6Ip := ip }
  else return none

/-- `(nm & 0xc000) == 0xc000`. -/
def nmIsPointer (nm : ℕ) : Bool := nm &&& 0xc000 = 0xc000

/-- The offset of the owner name. -/
def nameOffset (parseOffset : ℤ) (nm : ℕ) : ℤ :=
  if nmIsPointer nm then (nm &&& 0x3fff : ℕ) else parseOffset

/-- `fields_offset`. -/
def fieldsOffset (nm : ℕ) (name : Bytes) : ℤ := if nmIsPointer nm then 0 else name.length

/-- The fields of an answer behind its name, and its data: the answer and the offset behind it, or
`none` for -1. -/
def parseFields (payloadLen parseOffset : ℤ) (nm : ℕ) (fields : ℤ) :
    Reads ℤ UInt8 (Option (DnsAnswer × ℤ)) := do
  let type ← readU16 (parseOffset + fields + 2)
  let cls ← readU16 (parseOffset + fields + 4)
  let datalen ← readU16 (parseOffset + fields + 10)
  if payloadLen < parseOffset + fields + kDNSAnswerHeaderSize + datalen then return none
  else do
    match ← answerData ⟨nm, type, cls, datalen, [0, 0, 0, 0], List.replicate 16 0⟩
        (parseOffset + kDNSAnswerHeaderSize + fields) with
    | none => return none
    | some ans => return some (ans, parseOffset + (kDNSAnswerHeaderSize + fields + datalen))

/-- The answers, from `parseOffset` on. -/
def answerLoop (depth : ℕ) (payloadLen : ℤ) :
    ℕ → ℤ → List DnsAnswer → Reads ℤ UInt8 (Option (ℤ × List DnsAnswer))
  | 0, _, answers => return some (0, answers)
  | answersNum + 1, parseOffset, answers => do
      let nm ← readU16 parseOffset
      match ← dnsParseName depth (nameOffset parseOffset nm) payloadLen [] with
      | none => return none
      | some (namrRc, name) =>
          if namrRc < 0 then return some (-1, answers)
          else do
            match ← parseFields payloadLen parseOffset nm (fieldsOffset nm name) with
            | none => return some (-1, answers)
            | some (ans, next) => answerLoop depth payloadLen answersNum next (answers ++ [ans])

/-- `dns_parse_answers`: the return code, and `answers`.  The transaction id is read and not
used. -/
def dnsParseAnswers (depth : ℕ) (payloadLen : ℤ) :
    Reads ℤ UInt8 (Option (ℤ × List DnsAnswer)) := do
  let _txid ← readU16 0
  let questionNum ← readU16 4
  let answersNum ← readU16 6
  match ← questionLoop questionNum 12 (payloadLen - 12) with
  | none => return some (-1, [])
  | some parseOffset => answerLoop depth payloadLen answersNum parseOffset []

/-! ## Results -/

/-- The call returns `r`: it does so at every depth that is large enough. -/
def Returns {α : Type} (m : ℤ → UInt8) (call : ℕ → Reads ℤ UInt8 (Option α)) (r : α) : Prop :=
  ∃ depth, ∀ d, depth ≤ d → (call d).eval m = some r

end Snova
