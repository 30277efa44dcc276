import Snova.Framework.Bytes
import Snova.Framework.Exec
import Snova.Framework.Region
import Mathlib.Algebra.Order.Group.Int
import Mathlib.Data.FinEnum

/-!
# The trusted name server

`trusted_ns_loop` (`snova/server/dns_proxy_server.cc`) reads the answers of the trusted name
server, DNS over TLS or DNS over HTTPS, from one connection into one buffer.  A read of the main
loop takes whatever has arrived.  When a message has begun, the rest of it is read with
`read_exact`, the answer is passed to `dns_response`, and what follows it is moved to the front
of the buffer.

The lengths come from the peer and go through `uint16_t`, `uint32_t` and `int` variables; the
conversions are written out.  Every access to the buffer that the code makes is checked here: an
access beyond `buffer->size()` is `overrun`, and nothing is known of what happens after it.
-/

namespace Snova

/-! ## Text -/

/-- The bytes of an ASCII text. -/
def ascii (text : List Char) : Bytes := text.map fun c => UInt8.ofNat c.toNat

/-- `string_view::find`: where the first occurrence begins. -/
def find (needle : Bytes) : Bytes → Option ℕ
  | [] => if needle.isPrefixOf [] then some 0 else none
  | b :: view =>
      if needle.isPrefixOf (b :: view) then some 0 else (find needle view).map (· + 1)

/-- `string_view::find` from a position on. -/
def findFrom (needle view : Bytes) (pos : ℕ) : Option ℕ :=
  (find needle (view.drop pos)).map (· + pos)

/-- `absl::ascii_isspace`. -/
def asciiIsSpace (b : UInt8) : Bool := b = 32 || (9 ≤ b && b ≤ 13)

/-- `absl::StripAsciiWhitespace`. -/
def stripAsciiWhitespace (text : Bytes) : Bytes :=
  ((text.dropWhile asciiIsSpace).reverse.dropWhile asciiIsSpace).reverse

/-- `http_get_header` (`snova/util/http_helper.cc`): the value up to the end of the line; `none`
for -1. -/
def httpGetHeader (recvData header : Bytes) : Option Bytes := do
  let pos ← find header recvData
  let endPos ← findFrom [13, 10] recvData pos
  let n := endPos - pos - header.length
  some (stripAsciiWhitespace ((recvData.drop (pos + header.length)).take n))

/-- `absl::SimpleAtoi` into a `uint32_t`: white space around it and a plus sign are accepted. -/
def simpleAtoi (text : Bytes) : Option ℕ :=
  let text := stripAsciiWhitespace text
  let digits := if text.head? = some 43 then text.tail else text
  if digits ≠ [] ∧ ∀ b ∈ digits, 48 ≤ b ∧ b ≤ 57 then
    let value := digits.foldl (fun acc b => 10 * acc + (b.toNat - 48)) 0
    if value < 2 ^ 32 then some value else none
  else none

/-! ## One answer -/

/-- The value of an `int` that is assigned `n`. -/
def toInt32 (n : ℤ) : ℤ := n.bmod (2 ^ 32)

/-- What the loop finds at the front of the buffer. -/
inductive NsHeader
  | more
  -- not an answer: the connection is given up
  | invalid
  -- a message of `contentLen` bytes that begins at `offset`
  | found (offset contentLen : ℕ)

/-- The header of a DNS over TLS message. -/
def dotHeader (view : Bytes) : NsHeader :=
  if view.length < 12 then .more else .found 2 (ofBE (view.take 2))

/-- The header of an HTTP response. -/
def dohHeader (view : Bytes) : NsHeader :=
  match find [13, 10, 13, 10] view with
  | none => .more
  | some hendPos =>
      let headers := view.take hendPos
      match find (ascii "HTTP/1.1 200 OK".toList) headers with
      | none => .invalid
      | some _ =>
          match (httpGetHeader headers (ascii "Content-Length:".toList)).bind simpleAtoi with
          | none => .invalid
          | some contentLen => .found (hendPos + 4) contentLen

/-- The header at the front of the buffer. -/
def nsHeader (https : Bool) (view : Bytes) : NsHeader :=
  if https then dohHeader view else dotHeader view

/-- `answer_offset`, `answer_len`, `answer_chunk_len` and `dns_res_rest`. -/
structure NsAnswer where
  offset : ℕ
  len : ℕ
  chunkLen : ℕ
  rest : ℤ

/-- The lengths of a DNS over TLS answer. -/
def dotAnswer (bufferPos answerLen : ℕ) : NsAnswer :=
  ⟨2, answerLen, answerLen + 2, toInt32 (answerLen + 2 - bufferPos)⟩

/-- The lengths of an HTTP response whose body begins at `offset`. -/
def dohAnswer (bufferPos offset contentLen : ℕ) : NsAnswer :=
  let expectLen := toInt32 (offset + contentLen)
  let answerLen := contentLen % 2 ^ 16
  ⟨offset % 2 ^ 32, answerLen, (answerLen + offset) % 2 ^ 32, toInt32 (expectLen - bufferPos)⟩

def nsAnswer (https : Bool) (bufferPos offset contentLen : ℕ) : NsAnswer :=
  if https then dohAnswer bufferPos offset contentLen else dotAnswer bufferPos contentLen

/-! ## The loop -/

/-- A call of `dns_response`, with the position and the length of the answer and `buffer_pos`. -/
structure NsResponse where
  txid : Bytes
  payload : Bytes
  offset : ℕ
  len : ℕ
  bufferPos : ℕ

inductive NsPhase (size : ℕ)
  -- `trusted_ns` is null
  | connecting
  -- in the `AsyncRead` of the main loop
  | reading
  -- in `read_exact`: the next `rest` bytes go to `pos`
  | readingRest (pos rest : ℕ) (fits : pos + rest ≤ size) (answer : NsAnswer)
  | overrun

structure TrustedNs (size : ℕ) where
  https : Bool
  buffer : Region UInt8 size
  bufferPos : ℕ
  fits : bufferPos ≤ size
  phase : NsPhase size
  responses : List NsResponse

inductive NsAction
  | connect (ok : Bool)
  -- the pending `AsyncRead` completes, or fails
  | read (data : Bytes)
  | error

namespace TrustedNs

variable {size : ℕ}

/-- The connection is there; the buffer may have been used before. -/
def init (https : Bool) (buffer : Region UInt8 size) : TrustedNs size where
  https := https
  buffer := buffer
  bufferPos := 0
  fits := Nat.zero_le _
  phase := .reading
  responses := []

/-- `buffer[0, buffer_pos)`. -/
def view (s : TrustedNs size) : Bytes := s.buffer.slice 0 s.bufferPos

/-- Received bytes are in the buffer, and `buffer_pos` is behind them. -/
def append (s : TrustedNs size) (pos : ℕ) (data : Bytes) (h : pos + data.length ≤ size) :
    TrustedNs size :=
  { s with buffer := s.buffer.store pos data h, bufferPos := pos + data.length, fits := h }

/-- The answer is complete: `dns_response`, and the move of what follows it. -/
def forward (s : TrustedNs size) (answer : NsAnswer) : TrustedNs size :=
  if answer.offset + 2 ≤ size ∧ answer.offset + answer.len ≤ size then
    let response : NsResponse := ⟨s.buffer.slice answer.offset 2,
      s.buffer.slice answer.offset answer.len, answer.offset, answer.len, s.bufferPos⟩
    if h : answer.chunkLen < s.bufferPos then
      { s with
        buffer := s.buffer.moveToFront answer.chunkLen (s.bufferPos - answer.chunkLen)
          (by have := s.fits; omega)
        bufferPos := s.bufferPos - answer.chunkLen
        fits := by have := s.fits; omega
        phase := .reading
        responses := s.responses ++ [response] }
    else
      { s with
        bufferPos := 0
        fits := Nat.zero_le _
        phase := .reading
        responses := s.responses ++ [response] }
  else { s with phase := .overrun }

/-- The main loop, from a completed read to the next one. -/
def afterRead (s : TrustedNs size) : TrustedNs size :=
  match nsHeader s.https s.view with
  | .more => { s with phase := .reading }
  | .invalid => { s with phase := .connecting }
  | .found offset contentLen =>
      let answer := nsAnswer s.https s.bufferPos offset contentLen
      if 0 < answer.rest then
        if h : s.bufferPos + answer.rest.toNat ≤ size then
          { s with phase := .readingRest s.bufferPos answer.rest.toNat h answer }
        else { s with phase := .overrun }
      else s.forward answer

/-- What `read_exact` reads has room behind what it has read. -/
lemma pos_add_le {pos rest : ℕ} {data : Bytes} (fits : pos + rest ≤ size)
    (h : data.length ≤ rest) : pos + data.length ≤ size := by
  omega

/-- And so has what it still has to read. -/
lemma rest_fits {pos rest : ℕ} {data : Bytes} (fits : pos + rest ≤ size)
    (h : data.length ≤ rest) : pos + data.length + (rest - data.length) ≤ size := by
  omega

def step (s : TrustedNs size) : NsAction → Option (TrustedNs size)
  | .connect ok =>
      match s.phase with
      | .connecting =>
          some (if ok then { s with bufferPos := 0, fits := Nat.zero_le _, phase := .reading }
            else s)
      | _ => none
  | .read data =>
      match s.phase with
      | .reading =>
          if h : s.bufferPos + data.length ≤ size then
            some (if data = [] then { s with phase := .connecting }
              else (s.append s.bufferPos data h).afterRead)
          else none
      | .readingRest pos rest fits answer =>
          if h : data.length ≤ rest then
            some (if data.length = rest then (s.append pos data (pos_add_le fits h)).forward answer
              else { s with
                buffer := s.buffer.store pos data (pos_add_le fits h)
                phase :=
                  .readingRest (pos + data.length) (rest - data.length) (rest_fits fits h) answer })
          else none
      | _ => none
  | .error =>
      match s.phase with
      | .reading => some { s with phase := .connecting }
      | .readingRest _ _ _ _ => some { s with phase := .connecting }
      | _ => none

end TrustedNs

end Snova
