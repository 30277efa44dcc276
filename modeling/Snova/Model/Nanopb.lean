import Snova.Framework.Protobuf
import Snova.Model.MuxEvent

/-!
# The messages on the wire

The seven messages of `mux_event.proto` in the protobuf wire format, as a value `protobuf` of
`Nanopb`.  Each message is a record of wire values in the order of its `FIELDLIST`; the
conversions are the ones nanopb makes for the types in use, and a string field accepts only what
fits its array with the terminator.
-/

namespace Snova

open Protobuf (Value)

/-! ## Field types -/

/-- `int32` fields travel sign-extended to 64 bits. -/
def int32ToWire (e : Int32) : Value := .varint e.toInt64.toUInt64.toNat

def boolToWire (b : Bool) : Value := .varint b.toNat

def stringToWire {n : ℕ} (s : CString n) : Value := .bytes s.bytes

def int32OfWire (n : ℕ) : Int32 := (UInt64.ofNat n).toInt64.toInt32

def boolOfWire (n : ℕ) : Bool := n ≠ 0

/-- A string that does not fit is an error; a zero byte inside ends it. -/
def stringOfWire (n : ℕ) (hn : 0 < n) (b : Bytes) : Option (CString n) :=
  if b.length < n then some (.snprintf n hn b) else none

@[simp] lemma int32OfWire_toWire (e : Int32) : int32OfWire e.toInt64.toUInt64.toNat = e := by
  simp [int32OfWire]

@[simp] lemma boolOfWire_toWire (b : Bool) : boolOfWire b.toNat = b := by
  cases b <;> rfl

@[simp] lemma stringOfWire_toWire {n : ℕ} (hn : 0 < n) (s : CString n) :
    stringOfWire n hn s.bytes = some s := by
  have hfits := s.fits
  have htake : s.bytes.takeWhile (· ≠ 0) = s.bytes := by
    rw [List.takeWhile_eq_self_iff]
    intro b hb
    have hne : b ≠ 0 := fun h => s.terminated (h ▸ hb)
    simpa using hne
  have hmk : (CString.snprintf n hn s.bytes).bytes = s.bytes := by
    show ((s.bytes.takeWhile (· ≠ 0)).take (n - 1)) = s.bytes
    rw [htake, List.take_of_length_le (by omega)]
  rw [stringOfWire, if_pos s.fits]
  obtain ⟨bytes, fits, terminated⟩ := s
  simp only [CString.snprintf] at hmk ⊢
  congr 2

/-! ## Messages -/

namespace PbKind

/-- The wire values of a message, in the order of its fields. -/
def toWire : (k : PbKind) → k.Message → List Value
  | .authRequest, m =>
      [stringToWire m.user, .varint m.clientId.toNat, boolToWire m.isEntry, boolToWire m.isExit,
        boolToWire m.isMiddle]
  | .authResponse, m => [boolToWire m.success, .varint m.iv.toNat]
  | .commonResponse, m => [boolToWire m.success, int32ToWire m.errc, stringToWire m.reason]
  | .streamOpenRequest, m =>
      [stringToWire m.remoteHost, .varint m.remotePort.toNat, boolToWire m.isTcp,
        boolToWire m.isTls]
  | .tunnelOpenRequest, m =>
      [stringToWire m.localHost, .varint m.localPort.toNat, .varint m.remotePort.toNat,
        boolToWire m.isTcp]
  | .tunnelOpenResponse, m => [boolToWire m.success, .varint m.tunnelId.toNat, int32ToWire m.errc]
  | .tunnelCloseRequest, m => [.varint m.tunnelId.toNat]

/-- Read a message; a value of the wrong wire type is an error. -/
def ofWire : (k : PbKind) → List Value → Option k.Message
  | .authRequest, [.bytes user, .varint clientId, .varint isEntry, .varint isExit,
      .varint isMiddle] =>
      (stringOfWire 256 pos_256 user).map fun user =>
        { user := user
          clientId := .ofNat clientId
          isEntry := boolOfWire isEntry
          isExit := boolOfWire isExit
          isMiddle := boolOfWire isMiddle }
  | .authResponse, [.varint success, .varint iv] =>
      some { success := boolOfWire success, iv := .ofNat iv }
  | .commonResponse, [.varint success, .varint errc, .bytes reason] =>
      (stringOfWire 512 pos_512 reason).map fun reason =>
        { success := boolOfWire success, errc := int32OfWire errc, reason := reason }
  | .streamOpenRequest, [.bytes remoteHost, .varint remotePort, .varint isTcp, .varint isTls] =>
      (stringOfWire 512 pos_512 remoteHost).map fun remoteHost =>
        { remoteHost := remoteHost
          remotePort := .ofNat remotePort
          isTcp := boolOfWire isTcp
          isTls := boolOfWire isTls }
  | .tunnelOpenRequest, [.bytes localHost, .varint localPort, .varint remotePort,
      .varint isTcp] =>
      (stringOfWire 512 pos_512 localHost).map fun localHost =>
        { localHost := localHost
          localPort := .ofNat localPort
          remotePort := .ofNat remotePort
          isTcp := boolOfWire isTcp }
  | .tunnelOpenResponse, [.varint success, .varint tunnelId, .varint errc] =>
      some { success := boolOfWire success, tunnelId := .ofNat tunnelId, errc := int32OfWire errc }
  | .tunnelCloseRequest, [.varint tunnelId] => some { tunnelId := .ofNat tunnelId }
  | _, _ => none

lemma ofWire_toWire (k : PbKind) (m : k.Message) : k.ofWire (k.toWire m) = some m := by
  cases k <;> simp [ofWire, toWire, boolToWire, stringToWire, int32ToWire]

/-- The default of each field. -/
def wireDefaults (k : PbKind) : List Value := (k.toWire k.initDefault).map Value.initDefault

/-- The wire types of a message's fields do not depend on its contents. -/
lemma map_initDefault_toWire (k : PbKind) (m : k.Message) :
    (k.toWire m).map Value.initDefault = k.wireDefaults := by
  cases k <;> rfl

end PbKind

/-- The messages in the protobuf wire format. -/
def protobuf : Nanopb where
  encodeDelimited k m := Protobuf.encodeDelimited (Protobuf.put 1 (k.toWire m))
  decodeDelimited k b :=
    (Protobuf.decodeDelimited b).bind fun fs => k.ofWire (Protobuf.get 1 fs k.wireDefaults)
  decode_encode := by
    intro k m
    rw [Protobuf.decodeDelimited_encodeDelimited, Option.bind_some, ← k.map_initDefault_toWire m,
      Protobuf.get_put, k.ofWire_toWire]
  encode_ne_nil := fun k m => Protobuf.encodeDelimited_ne_nil _

/-! ## Sizes -/

lemma PbKind.toWire_fits (k : PbKind) (m : k.Message) :
    (k.toWire m).length ≤ 5 ∧ ∀ v ∈ k.toWire m, v.Fits 511 := by
  have hnum : ∀ n : UInt64, (Value.varint n.toNat).Fits 511 := fun n => n.toNat_lt
  have hnum32 : ∀ n : UInt32, (Value.varint n.toNat).Fits 511 := fun n =>
    lt_trans n.toNat_lt (by decide)
  have hbool : ∀ b : Bool, (boolToWire b).Fits 511 := fun b =>
    lt_of_le_of_lt (Bool.toNat_le b) (by decide)
  have hstring : ∀ {n : ℕ} (s : CString n), n ≤ 512 → (stringToWire s).Fits 511 := fun s h =>
    ⟨by have := s.fits; omega, by decide⟩
  cases k with
  | authRequest => simp [toWire, hnum, hbool, hstring]
  | authResponse => simp [toWire, hnum, hbool]
  | commonResponse => simp [toWire, hbool, hstring, int32ToWire, hnum]
  | streamOpenRequest => simp [toWire, hnum32, hbool, hstring]
  | tunnelOpenRequest => simp [toWire, hnum32, hbool, hstring]
  | tunnelOpenResponse => simp [toWire, hnum, hbool, int32ToWire]
  | tunnelCloseRequest => simp [toWire, hnum]

/-- Every message fits a chunk. -/
lemma length_protobuf_le (k : PbKind) (m : k.Message) :
    (protobuf.encodeDelimited k m).length ≤ kMaxChunkSize := by
  obtain ⟨hlen, hfits⟩ := k.toWire_fits m
  have hle := Protobuf.length_encodeDelimited_le (m := 511) (by omega) (by omega) hfits
  have hmax : 10 + 5 * (20 + 511) ≤ kMaxChunkSize := by decide
  show (Protobuf.encodeDelimited _).length ≤ _
  omega

end Snova
