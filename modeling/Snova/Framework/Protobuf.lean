import Snova.Framework.Bytes

/-!
# The protobuf wire format

Base-128 varints, tagged fields, and length-delimited messages, as a codec between byte strings
and lists of numbered field values.  `decodeDelimited_encodeDelimited` is the round trip.  A
message type is a list of fields; `put` and `get` are the record layer of proto3 above it, with
`get_put` its round trip.
-/

namespace Snova.Protobuf

/-! ## Varints -/

/-- Seven bits per byte, least significant first; `fuel` bounds the number of bytes. -/
def varintBytes : ℕ → ℕ → Bytes
  | 0, _ => []
  | fuel + 1, n =>
      if n < 128 then [UInt8.ofNat n]
      else UInt8.ofNat (n % 128 + 128) :: varintBytes fuel (n / 128)

def encodeVarint (n : ℕ) : Bytes := varintBytes (n + 1) n

/-- Read a varint off the front, with the bytes after it. -/
def decodeVarint : Bytes → Option (ℕ × Bytes)
  | [] => none
  | b :: bs =>
      if b.toNat < 128 then some (b.toNat, bs)
      else (decodeVarint bs).map fun p => (b.toNat - 128 + 128 * p.1, p.2)

lemma decodeVarint_varintBytes {fuel n : ℕ} (h : n < fuel) (rest : Bytes) :
    decodeVarint (varintBytes fuel n ++ rest) = some (n, rest) := by
  induction fuel generalizing n with
  | zero => omega
  | succ fuel ih =>
      by_cases hn : n < 128
      · have hb : (UInt8.ofNat n).toNat = n := by rw [UInt8.toNat_ofNat']; omega
        simp [varintBytes, hn, decodeVarint, hb]
      · have hb : (UInt8.ofNat (n % 128 + 128)).toNat = n % 128 + 128 := by
          rw [UInt8.toNat_ofNat']; omega
        have hrest := ih (n := n / 128) (by omega)
        simp only [varintBytes, hn, if_false, List.cons_append, decodeVarint, hb, hrest]
        rw [if_neg (by omega), Option.map_some]
        congr 2
        omega

lemma decodeVarint_encodeVarint (n : ℕ) (rest : Bytes) :
    decodeVarint (encodeVarint n ++ rest) = some (n, rest) :=
  decodeVarint_varintBytes (Nat.lt_succ_self n) rest

lemma encodeVarint_ne_nil (n : ℕ) : encodeVarint n ≠ [] := by
  rw [encodeVarint, varintBytes]
  split <;> simp

/-! ## Fields -/

/-- The two wire types in use. -/
inductive Value
  | varint (n : ℕ)
  | bytes (b : Bytes)
  deriving DecidableEq, Repr

/-- A field: its number and wire type, then its value. -/
def encodeField : ℕ × Value → Bytes
  | (num, .varint n) => encodeVarint (8 * num) ++ encodeVarint n
  | (num, .bytes b) => encodeVarint (8 * num + 2) ++ (encodeVarint b.length ++ b)

/-- Read one field off the front, with the bytes after it. -/
def decodeField (bs : Bytes) : Option ((ℕ × Value) × Bytes) :=
  (decodeVarint bs).bind fun (key, bs) =>
    (decodeVarint bs).bind fun (n, bs) =>
      if key % 8 = 0 then some ((key / 8, .varint n), bs)
      else if key % 8 = 2 ∧ n ≤ bs.length then some ((key / 8, .bytes (bs.take n)), bs.drop n)
      else none

lemma decodeField_encodeField (f : ℕ × Value) (rest : Bytes) :
    decodeField (encodeField f ++ rest) = some (f, rest) := by
  obtain ⟨num, v⟩ := f
  cases v with
  | varint n =>
      simp only [decodeField, encodeField, List.append_assoc, decodeVarint_encodeVarint,
        Option.bind_some]
      rw [if_pos (by omega), Nat.mul_div_cancel_left num (by omega)]
  | bytes b =>
      simp only [decodeField, encodeField, List.append_assoc, decodeVarint_encodeVarint,
        Option.bind_some]
      rw [if_neg (by omega), if_pos ⟨by omega, by simp⟩, List.take_left, List.drop_left,
        show (8 * num + 2) / 8 = num by omega]

lemma encodeField_ne_nil (f : ℕ × Value) : encodeField f ≠ [] := by
  obtain ⟨num, v⟩ := f
  cases v <;> simp [encodeField, encodeVarint_ne_nil]

/-- Read fields until the bytes are used up; `fuel` bounds their number. -/
def decodeFields : ℕ → Bytes → Option (List (ℕ × Value))
  | _, [] => some []
  | 0, _ => none
  | fuel + 1, bs =>
      (decodeField bs).bind fun (f, bs) => (decodeFields fuel bs).map (f :: ·)

lemma decodeFields_flatMap {fuel : ℕ} (fs : List (ℕ × Value)) (h : fs.length ≤ fuel) :
    decodeFields fuel (fs.flatMap encodeField) = some fs := by
  induction fs generalizing fuel with
  | nil => cases fuel <;> rfl
  | cons f fs ih =>
      cases fuel with
      | zero => simp at h
      | succ fuel =>
          obtain ⟨b, bs, hb⟩ := List.exists_cons_of_ne_nil (encodeField_ne_nil f)
          have hrest := @ih fuel (by simpa using h)
          have hfield := decodeField_encodeField f (fs.flatMap encodeField)
          rw [List.flatMap_cons]
          rw [hb, List.cons_append] at hfield
          rw [hb, List.cons_append]
          simp [decodeFields, hfield, hrest]

/-! ## Delimited messages -/

def encodeDelimited (fs : List (ℕ × Value)) : Bytes :=
  encodeVarint (fs.flatMap encodeField).length ++ fs.flatMap encodeField

def decodeDelimited (bs : Bytes) : Option (List (ℕ × Value)) :=
  (decodeVarint bs).bind fun (n, bs) =>
    if n ≤ bs.length then decodeFields n (bs.take n) else none

lemma length_le_flatMap_encodeField (fs : List (ℕ × Value)) :
    fs.length ≤ (fs.flatMap encodeField).length := by
  induction fs with
  | nil => simp
  | cons f fs ih =>
      have hpos := List.length_pos_of_ne_nil (encodeField_ne_nil f)
      rw [List.flatMap_cons, List.length_append, List.length_cons]
      omega

/-- **The round trip.** -/
theorem decodeDelimited_encodeDelimited (fs : List (ℕ × Value)) :
    decodeDelimited (encodeDelimited fs) = some fs := by
  rw [decodeDelimited, encodeDelimited, decodeVarint_encodeVarint, Option.bind_some]
  simp only [le_refl, if_true, List.take_length]
  exact decodeFields_flatMap fs (length_le_flatMap_encodeField fs)

lemma encodeDelimited_ne_nil (fs : List (ℕ × Value)) : encodeDelimited fs ≠ [] := by
  simp [encodeDelimited, encodeVarint_ne_nil]

/-! ## Records

The fields of a proto3 message, numbered from one on in the order of its declaration.  A field
with its default value is left out, and a reader puts the default back. -/

/-- The default of a value's wire type. -/
def Value.initDefault : Value → Value
  | .varint _ => .varint 0
  | .bytes _ => .bytes []

/-- The fields of a record, the first one with number `num`. -/
def put (num : ℕ) : List Value → List (ℕ × Value)
  | [] => []
  | v :: vs => (if v = v.initDefault then [] else [(num, v)]) ++ put (num + 1) vs

/-- The last occurrence of a field. -/
def find (num : ℕ) : List (ℕ × Value) → Option Value
  | [] => none
  | (k, v) :: fs => (find num fs).or (if k = num then some v else none)

/-- Read a record; the list gives the default value of each field. -/
def get (num : ℕ) (fs : List (ℕ × Value)) : List Value → List Value
  | [] => []
  | d :: ds => (find num fs).getD d :: get (num + 1) fs ds

lemma find_append (num : ℕ) (fs gs : List (ℕ × Value)) :
    find num (fs ++ gs) = (find num gs).or (find num fs) := by
  induction fs with
  | nil => simp [find]
  | cons f fs ih => simp [find, ih, Option.or_assoc]

lemma find_eq_none {num : ℕ} {fs : List (ℕ × Value)} (h : ∀ f ∈ fs, f.1 ≠ num) :
    find num fs = none := by
  induction fs with
  | nil => rfl
  | cons f fs ih =>
      have hf : f.1 ≠ num := h f List.mem_cons_self
      have hfs := ih fun g hg => h g (List.mem_cons_of_mem _ hg)
      simp [find, hfs, hf]

lemma le_of_mem_put {num : ℕ} {vs : List Value} : ∀ f ∈ put num vs, num ≤ f.1 := by
  induction vs generalizing num with
  | nil => intro f hf; cases hf
  | cons v vs ih =>
      intro f hf
      rw [put, List.mem_append] at hf
      rcases hf with hf | hf
      · split at hf
        · cases hf
        · rw [List.mem_singleton.mp hf]
      · have := ih f hf
        omega

/-- Reading a record that was written after fields of lower numbers. -/
lemma get_append_put {num : ℕ} {before : List (ℕ × Value)} (vs : List Value)
    (h : ∀ f ∈ before, f.1 < num) :
    get num (before ++ put num vs) (vs.map Value.initDefault) = vs := by
  induction vs generalizing num before with
  | nil => rfl
  | cons v vs ih =>
      have hbefore : find num before = none :=
        find_eq_none fun f hf => (h f hf).ne
      have hafter : find num (put (num + 1) vs) = none :=
        find_eq_none fun f hf => by have := le_of_mem_put f hf; omega
      rw [List.map_cons, get, put, ← List.append_assoc]
      congr 1
      · rw [find_append, find_append, hbefore, hafter]
        split
        · next hv => simp [find, ← hv]
        · simp [find]
      · apply ih
        intro f hf
        rcases List.mem_append.mp hf with hf | hf
        · have := h f hf
          omega
        · split at hf
          · cases hf
          · rw [List.mem_singleton.mp hf]
            exact Nat.lt_succ_self num

lemma get_put (vs : List Value) : get 1 (put 1 vs) (vs.map Value.initDefault) = vs := by
  exact @get_append_put 1 [] vs (by simp)

/-! ## Sizes -/

/-- A number below `2 ^ 64`, or at most `m` bytes. -/
def Value.Fits (m : ℕ) : Value → Prop
  | .varint n => n < 2 ^ 64
  | .bytes b => b.length ≤ m ∧ m < 2 ^ 64

lemma length_varintBytes_le {fuel n k : ℕ} (h : n < 128 ^ (k + 1)) :
    (varintBytes fuel n).length ≤ k + 1 := by
  induction fuel generalizing n k with
  | zero => simp [varintBytes]
  | succ fuel ih =>
      rw [varintBytes]
      split
      · simp
      · next hn =>
          cases k with
          | zero => omega
          | succ k =>
              have hdiv : n / 128 < 128 ^ (k + 1) := by
                rw [Nat.div_lt_iff_lt_mul (by decide)]
                rwa [pow_succ] at h
              have hrest := ih hdiv
              rw [List.length_cons]
              omega

lemma length_encodeVarint_le {n : ℕ} (h : n < 2 ^ 64) : (encodeVarint n).length ≤ 10 :=
  length_varintBytes_le (lt_of_lt_of_le h (by decide))

lemma length_encodeField_le {num m : ℕ} {v : Value} (hnum : 8 * num + 2 < 2 ^ 64)
    (hv : v.Fits m) : (encodeField (num, v)).length ≤ 20 + m := by
  cases v with
  | varint n =>
      have hkey : (encodeVarint (8 * num)).length ≤ 10 := length_encodeVarint_le (by omega)
      have hval : (encodeVarint n).length ≤ 10 := length_encodeVarint_le hv
      rw [encodeField, List.length_append]
      omega
  | bytes b =>
      have hkey := length_encodeVarint_le hnum
      have hlen : (encodeVarint b.length).length ≤ 10 :=
        length_encodeVarint_le (lt_of_le_of_lt hv.1 hv.2)
      have hbytes := hv.1
      rw [encodeField, List.length_append, List.length_append]
      omega

/-- The size of a record. -/
lemma length_flatMap_put_le {m num : ℕ} {vs : List Value} (hnum : 8 * (num + vs.length) < 2 ^ 64)
    (hv : ∀ v ∈ vs, v.Fits m) :
    ((put num vs).flatMap encodeField).length ≤ vs.length * (20 + m) := by
  induction vs generalizing num with
  | nil => simp [put]
  | cons v vs ih =>
      rw [List.length_cons] at hnum
      have hrest := @ih (num + 1) (by omega) fun w hw => hv w (List.mem_cons_of_mem v hw)
      have hfield := @length_encodeField_le num m v (by omega) (hv v List.mem_cons_self)
      have hfirst : ((if v = v.initDefault then [] else [(num, v)]).flatMap encodeField).length ≤
          20 + m := by
        split
        · simp
        · simpa using hfield
      rw [put, List.flatMap_append, List.length_append, List.length_cons, Nat.succ_mul]
      omega

lemma length_encodeDelimited_le {m : ℕ} {vs : List Value} (hlen : vs.length < 2 ^ 32)
    (hm : vs.length * (20 + m) < 2 ^ 64) (hv : ∀ v ∈ vs, v.Fits m) :
    (encodeDelimited (put 1 vs)).length ≤ 10 + vs.length * (20 + m) := by
  have hbody := @length_flatMap_put_le m 1 vs (by omega) hv
  have hpre := length_encodeVarint_le (lt_of_le_of_lt hbody hm)
  rw [encodeDelimited, List.length_append]
  omega

end Snova.Protobuf
