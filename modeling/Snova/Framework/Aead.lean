import Snova.Framework.Bytes

/-!
# Authenticated encryption

`Aead` is what a user of an authenticated cipher with a sixteen-byte tag relies on: opening
undoes sealing under the same key and nonce, sealing adds exactly the tag, and opening either
fails or returns a plaintext sixteen bytes shorter than its input.  The laws are fields, so a
value of the type cannot break them.

`StreamAead` is the usual construction, a key stream and a tag over the ciphertext, and
`StreamAead.toAead` proves the laws for it once.  `chacha20Poly1305` is that construction at the
ChaCha20 key stream and the Poly1305 tag, with empty associated data.
-/

namespace Snova

/-- An authenticated cipher with a sixteen-byte tag and no associated data. -/
structure Aead where
  sealed : (key nonce plaintext : Bytes) → Bytes
  opened : (key nonce ciphertext : Bytes) → Option Bytes
  opened_sealed : ∀ key nonce p, opened key nonce (sealed key nonce p) = some p
  length_sealed : ∀ key nonce p, (sealed key nonce p).length = p.length + 16
  length_opened : ∀ key nonce c p, opened key nonce c = some p → c.length = p.length + 16

/-! ## A key stream and a tag -/

/-- The two functions of a stream-cipher construction. -/
structure StreamAead where
  /-- Byte `i` of the key stream. -/
  keystream : (key nonce : Bytes) → ℕ → UInt8
  /-- The tag of a ciphertext. -/
  tag : (key nonce ciphertext : Bytes) → Bytes
  length_tag : ∀ key nonce c, (tag key nonce c).length = 16

namespace StreamAead

variable (S : StreamAead)

/-- Combine a byte string with the key stream. -/
def mask (key nonce p : Bytes) : Bytes :=
  p.mapIdx fun i b => b ^^^ S.keystream key nonce i

@[simp] lemma length_mask (key nonce p : Bytes) : (S.mask key nonce p).length = p.length :=
  List.length_mapIdx

/-- Masking twice with the same key stream is the identity. -/
lemma mask_mask (key nonce p : Bytes) : S.mask key nonce (S.mask key nonce p) = p := by
  apply List.ext_getElem
  · rw [length_mask, length_mask]
  · intro i h₁ h₂
    simp only [mask, List.getElem_mapIdx]
    rw [UInt8.xor_assoc, UInt8.xor_self, UInt8.xor_zero]

/-- Mask, and append the tag of the result. -/
def sealed (key nonce p : Bytes) : Bytes :=
  S.mask key nonce p ++ S.tag key nonce (S.mask key nonce p)

/-- Split off the last sixteen bytes, check them, and unmask the rest. -/
def opened (key nonce c : Bytes) : Option Bytes :=
  if c.length < 16 then none
  else if c.drop (c.length - 16) = S.tag key nonce (c.take (c.length - 16)) then
    some (S.mask key nonce (c.take (c.length - 16)))
  else none

lemma opened_sealed (key nonce p : Bytes) : S.opened key nonce (S.sealed key nonce p) = some p := by
  have hlen : (S.sealed key nonce p).length = p.length + 16 := by
    rw [sealed, List.length_append, length_mask, S.length_tag]
  have htake : (S.sealed key nonce p).take p.length = S.mask key nonce p :=
    List.take_left' (S.length_mask key nonce p)
  have hdrop : (S.sealed key nonce p).drop p.length = S.tag key nonce (S.mask key nonce p) :=
    List.drop_left' (S.length_mask key nonce p)
  rw [opened, hlen, if_neg (by omega), Nat.add_sub_cancel, hdrop, htake, if_pos rfl, mask_mask]

lemma length_opened (key nonce c p : Bytes) (h : S.opened key nonce c = some p) :
    c.length = p.length + 16 := by
  unfold opened at h
  split at h
  · cases h
  · rename_i hlen
    split at h
    · rw [← Option.some_inj.mp h, length_mask, List.length_take]
      omega
    · cases h

/-- The construction is an authenticated cipher in the sense of `Aead`. -/
def toAead : Aead where
  sealed := S.sealed
  opened := S.opened
  opened_sealed := S.opened_sealed
  length_sealed := fun key nonce p => by
    rw [sealed, List.length_append, length_mask, S.length_tag]
  length_opened := S.length_opened

end StreamAead

/-! ## ChaCha20 and Poly1305 -/

namespace ChaCha

/-- The state: sixteen words below `2 ^ 32`. -/
structure State where
  (x0 x1 x2 x3 x4 x5 x6 x7 x8 x9 x10 x11 x12 x13 x14 x15 : ℕ)

def addWords (x y : ℕ) : ℕ := (x + y) % 2 ^ 32

def rotl (x n : ℕ) : ℕ := (x <<< n) % 2 ^ 32 ||| x >>> (32 - n)

/-- A quarter round on four words of the state. -/
def quarterRound {α : Type} (a b c d : ℕ) (k : ℕ → ℕ → ℕ → ℕ → α) : α :=
  let a := addWords a b
  let d := rotl (d ^^^ a) 16
  let c := addWords c d
  let b := rotl (b ^^^ c) 12
  let a := addWords a b
  let d := rotl (d ^^^ a) 8
  let c := addWords c d
  k a (rotl (b ^^^ c) 7) c d

/-- Four column rounds and four diagonal rounds. -/
def doubleRound : State → State
  | ⟨x0, x1, x2, x3, x4, x5, x6, x7, x8, x9, x10, x11, x12, x13, x14, x15⟩ =>
      quarterRound x0 x4 x8 x12 fun x0 x4 x8 x12 =>
      quarterRound x1 x5 x9 x13 fun x1 x5 x9 x13 =>
      quarterRound x2 x6 x10 x14 fun x2 x6 x10 x14 =>
      quarterRound x3 x7 x11 x15 fun x3 x7 x11 x15 =>
      quarterRound x0 x5 x10 x15 fun x0 x5 x10 x15 =>
      quarterRound x1 x6 x11 x12 fun x1 x6 x11 x12 =>
      quarterRound x2 x7 x8 x13 fun x2 x7 x8 x13 =>
      quarterRound x3 x4 x9 x14 fun x3 x4 x9 x14 =>
      ⟨x0, x1, x2, x3, x4, x5, x6, x7, x8, x9, x10, x11, x12, x13, x14, x15⟩

def rounds : ℕ → State → State
  | 0, s => s
  | n + 1, s => rounds n (doubleRound s)

/-- Word `i` of a byte string, little endian. -/
def word (bs : Bytes) (i : ℕ) : ℕ := ofLE ((bs.drop (4 * i)).take 4)

/-- The initial state: constants, key, block counter, nonce. -/
def initial (key nonce : Bytes) (counter : ℕ) : State :=
  ⟨0x61707865, 0x3320646e, 0x79622d32, 0x6b206574,
    word key 0, word key 1, word key 2, word key 3, word key 4, word key 5, word key 6, word key 7,
    counter % 2 ^ 32, word nonce 0, word nonce 1, word nonce 2⟩

def State.words : State → List ℕ
  | ⟨x0, x1, x2, x3, x4, x5, x6, x7, x8, x9, x10, x11, x12, x13, x14, x15⟩ =>
      [x0, x1, x2, x3, x4, x5, x6, x7, x8, x9, x10, x11, x12, x13, x14, x15]

/-- One sixty-four byte block of key stream. -/
def block (key nonce : Bytes) (counter : ℕ) : Bytes :=
  let s := initial key nonce counter
  (List.zipWith (fun x y => toLE 4 (addWords x y)) s.words (rounds 10 s).words).flatten

-- the beginning of the test vector of the standard
example : (block ((List.range 32).map UInt8.ofNat) [0, 0, 0, 9, 0, 0, 0, 0x4a, 0, 0, 0, 0] 1).take 4
    = [0x10, 0xf1, 0xe7, 0xe4] := by decide +kernel

/-- Block `n` of the key stream that encrypts: blocks are counted from one. -/
def streamBlock (key nonce : Bytes) : ℕ → Bytes
  | 0 => block key nonce 1
  | n + 1 => block key nonce (n + 2)

def keystream (key nonce : Bytes) (i : ℕ) : UInt8 :=
  (streamBlock key nonce (i / 64)).getD (i % 64) 0

/-- The Poly1305 accumulator over sixteen-byte blocks; `fuel` bounds the number of blocks. -/
def accumulate (r : ℕ) : ℕ → ℕ → Bytes → ℕ
  | 0, acc, _ => acc
  | _, acc, [] => acc
  | fuel + 1, acc, bs =>
      let n := ofLE (bs.take 16) + 256 ^ (bs.take 16).length
      accumulate r fuel ((acc + n) * r % (2 ^ 130 - 5)) (bs.drop 16)

/-- Zeros up to a multiple of sixteen. -/
def pad16 (n : ℕ) : Bytes := List.replicate ((16 - n % 16) % 16) 0

/-- The tag of a ciphertext with empty associated data, under the one-time key of block zero. -/
def tag (key nonce c : Bytes) : Bytes :=
  let otk := block key nonce 0
  let r := ofLE (otk.take 16) &&& 0x0ffffffc0ffffffc0ffffffc0fffffff
  let s := ofLE ((otk.drop 16).take 16)
  let m := c ++ pad16 c.length ++ toLE 8 0 ++ toLE 8 c.length
  toLE 16 (accumulate r m.length 0 m + s)

end ChaCha

/-- ChaCha20-Poly1305 with empty associated data. -/
def chacha20Poly1305 : Aead :=
  StreamAead.toAead
    { keystream := ChaCha.keystream
      tag := ChaCha.tag
      length_tag := fun _ _ _ => length_toLE 16 _ }

end Snova
