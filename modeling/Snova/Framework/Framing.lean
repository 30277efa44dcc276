import Mathlib.Data.List.Basic
import Mathlib.Tactic.Common

/-!
# Incremental decoders

A decoder reads the items of a byte stream one after the other.  Each call sees the part of the
stream that has arrived and was not consumed yet, and says that it needs more, that the stream
is malformed, or that an item of so many bytes stands at the front.  Two laws make it
indifferent to how the stream arrives: an item takes at least one byte and at most those that
are there, and a verdict other than "more" is not changed by bytes that arrive later.

`Decoder.decodeAll` applies a decoder again and again.  `decodeAll_append` is the reason for the
laws: decoding a stream in two pieces, with the undecoded rest of the first in front of the
second, is decoding the whole of it.
-/

namespace Snova

variable {σ β α ε : Type*}

/-- What one call of a decoder says. -/
inductive Outcome (σ α ε : Type*)
  | more
  | fail (e : ε)
  -- an item, its length, and the decoder's state behind it
  | item (a : α) (n : ℕ) (s : σ)

/-- A decoder that does not depend on how its input is cut. -/
structure Decoder (σ β α ε : Type*) where
  next : σ → List β → Outcome σ α ε
  item_bounds : ∀ {s bs a n s'}, next s bs = .item a n s' → 0 < n ∧ n ≤ bs.length
  next_append : ∀ {s bs}, next s bs ≠ .more → ∀ x, next s (bs ++ x) = next s bs

/-- The result of decoding as far as possible: the items with their lengths, the error that
stopped it if one did, and the state and the input it stopped at. -/
structure Decoded (σ β α ε : Type*) where
  items : List (α × ℕ)
  error : Option ε
  rest : List β
  state : σ

/-- Items decoded before. -/
def Decoded.after (r : Decoded σ β α ε) (items : List (α × ℕ)) : Decoded σ β α ε :=
  { r with items := items ++ r.items }

@[simp] lemma Decoded.after_nil (r : Decoded σ β α ε) : r.after [] = r := rfl

@[simp] lemma Decoded.after_after (r : Decoded σ β α ε) (xs ys : List (α × ℕ)) :
    (r.after ys).after xs = r.after (xs ++ ys) := by
  simp [Decoded.after]

namespace Decoder

variable (d : Decoder σ β α ε)

/-- At most `fuel` calls. -/
def decodeFuel : ℕ → σ → List β → Decoded σ β α ε
  | 0, s, bs => ⟨[], none, bs, s⟩
  | fuel + 1, s, bs =>
      match d.next s bs with
      | .more => ⟨[], none, bs, s⟩
      | .fail e => ⟨[], some e, bs, s⟩
      | .item a n s' => (decodeFuel fuel s' (bs.drop n)).after [(a, n)]

/-- The decoder applied to the unconsumed part of its input until it wants more or fails.  Every
item takes a byte, so the length bounds the number of calls. -/
def decodeAll (s : σ) (bs : List β) : Decoded σ β α ε := d.decodeFuel (bs.length + 1) s bs

/-- Induction along the calls of a decoder. -/
lemma decode_induction {motive : σ → List β → Prop}
    (more : ∀ s bs, d.next s bs = .more → motive s bs)
    (fail : ∀ s bs e, d.next s bs = .fail e → motive s bs)
    (item : ∀ s bs a n s', d.next s bs = .item a n s' → 0 < n → n ≤ bs.length →
      motive s' (bs.drop n) → motive s bs)
    (s : σ) (bs : List β) : motive s bs := by
  induction h : bs.length using Nat.strongRecOn generalizing s bs with
  | _ len ih =>
      cases hn : d.next s bs with
      | more => exact more s bs hn
      | fail e => exact fail s bs e hn
      | item a n s' =>
          obtain ⟨hpos, hle⟩ := d.item_bounds hn
          have hdrop : (bs.drop n).length < len := by rw [List.length_drop]; omega
          exact item s bs a n s' hn hpos hle (ih _ hdrop s' (bs.drop n) rfl)

lemma decodeFuel_of_lt (s : σ) (bs : List β) :
    ∀ fuel, bs.length < fuel → d.decodeFuel fuel s bs = d.decodeAll s bs := by
  induction s, bs using d.decode_induction with
  | more s bs hn =>
      intro fuel h
      obtain ⟨fuel, rfl⟩ : ∃ m, fuel = m + 1 := ⟨fuel - 1, by omega⟩
      simp [decodeAll, decodeFuel, hn]
  | fail s bs e hn =>
      intro fuel h
      obtain ⟨fuel, rfl⟩ : ∃ m, fuel = m + 1 := ⟨fuel - 1, by omega⟩
      simp [decodeAll, decodeFuel, hn]
  | item s bs a n s' hn hpos hle ih =>
      intro fuel h
      obtain ⟨fuel, rfl⟩ : ∃ m, fuel = m + 1 := ⟨fuel - 1, by omega⟩
      -- Both budgets exceed the length of what is left, so both compute `decodeAll` of it.
      have hdrop : (bs.drop n).length < bs.length := by rw [List.length_drop]; omega
      rw [decodeAll, decodeFuel, decodeFuel, hn]
      simp only
      rw [ih fuel (by omega), ih bs.length hdrop]

lemma decodeAll_of_more {s : σ} {bs : List β} (h : d.next s bs = .more) :
    d.decodeAll s bs = ⟨[], none, bs, s⟩ := by
  simp [decodeAll, decodeFuel, h]

lemma decodeAll_of_fail {s : σ} {bs : List β} {e : ε} (h : d.next s bs = .fail e) :
    d.decodeAll s bs = ⟨[], some e, bs, s⟩ := by
  simp [decodeAll, decodeFuel, h]

lemma decodeAll_of_item {s s' : σ} {bs : List β} {a : α} {n : ℕ}
    (h : d.next s bs = .item a n s') :
    d.decodeAll s bs = (d.decodeAll s' (bs.drop n)).after [(a, n)] := by
  obtain ⟨hpos, hle⟩ := d.item_bounds h
  have hdrop : (bs.drop n).length < bs.length := by rw [List.length_drop]; omega
  rw [decodeAll, decodeFuel, h]
  simp only
  rw [d.decodeFuel_of_lt s' (bs.drop n) bs.length hdrop]

lemma next_append_of_item {s s' : σ} {bs : List β} {a : α} {n : ℕ}
    (h : d.next s bs = .item a n s') (x : List β) : d.next s (bs ++ x) = .item a n s' := by
  rw [d.next_append (by rw [h]; intro hmore; cases hmore), h]

/-- **Decoding does not depend on how the input is cut.**  What is decoded from a first piece
stays, and decoding goes on with its rest in front of the second. -/
lemma decodeAll_append (s : σ) (xs ys : List β) (h : (d.decodeAll s xs).error = none) :
    d.decodeAll s (xs ++ ys) =
      (d.decodeAll (d.decodeAll s xs).state ((d.decodeAll s xs).rest ++ ys)).after
        (d.decodeAll s xs).items := by
  induction s, xs using d.decode_induction with
  | more s xs hn => simp [d.decodeAll_of_more hn]
  | fail s xs e hn => rw [d.decodeAll_of_fail hn] at h; cases h
  | item s xs a n s' hn hpos hle ih =>
      rw [d.decodeAll_of_item hn] at h ⊢
      rw [d.decodeAll_of_item (d.next_append_of_item hn ys), List.drop_append_of_le_length hle,
        ih h]
      simp [Decoded.after]

/-- A failure is final: later input changes neither the items nor the error. -/
lemma decodeAll_append_of_error {s : σ} {xs : List β} {e : ε}
    (h : (d.decodeAll s xs).error = some e) (ys : List β) :
    (d.decodeAll s (xs ++ ys)).items = (d.decodeAll s xs).items ∧
      (d.decodeAll s (xs ++ ys)).error = some e := by
  induction s, xs using d.decode_induction with
  | more s xs hn => rw [d.decodeAll_of_more hn] at h; cases h
  | fail s xs e' hn =>
      have hn' : d.next s (xs ++ ys) = .fail e' := by
        rw [d.next_append (by rw [hn]; intro hmore; cases hmore), hn]
      rw [d.decodeAll_of_fail hn] at h ⊢
      rw [d.decodeAll_of_fail hn']
      exact ⟨rfl, h⟩
  | item s xs a n s' hn hpos hle ih =>
      rw [d.decodeAll_of_item hn] at h ⊢
      obtain ⟨hitems, herr⟩ := ih h
      rw [d.decodeAll_of_item (d.next_append_of_item hn ys), List.drop_append_of_le_length hle]
      exact ⟨by simp [Decoded.after, hitems], herr⟩

/-- Later input only adds items. -/
lemma decodeAll_prefix_items (s : σ) (xs ys : List β) :
    (d.decodeAll s xs).items <+: (d.decodeAll s (xs ++ ys)).items := by
  cases he : (d.decodeAll s xs).error with
  | none =>
      rw [d.decodeAll_append s xs ys he]
      exact List.prefix_append _ _
  | some e => exact ((d.decodeAll_append_of_error he ys).1 ▸ List.prefix_refl _)

/-- Every item was found by one of the calls. -/
lemma next_of_mem_items (s : σ) (bs : List β) :
    ∀ item ∈ (d.decodeAll s bs).items,
      ∃ s' bs' s'', d.next s' bs' = .item item.1 item.2 s'' := by
  induction s, bs using d.decode_induction with
  | more s bs hn => simp [d.decodeAll_of_more hn]
  | fail s bs e hn => simp [d.decodeAll_of_fail hn]
  | item s bs a n s' hn hpos hle ih =>
      intro item hitem
      rw [d.decodeAll_of_item hn] at hitem
      obtain hfirst | hrest := List.mem_cons.mp hitem
      · rw [hfirst]
        exact ⟨s, bs, s', hn⟩
      · exact ih item hrest

/-- Byte strings each of which is one item, whatever follows it. -/
inductive Frames (d : Decoder σ β α ε) : σ → List (List β) → List (α × ℕ) → σ → Prop
  | nil (s : σ) : Frames d s [] [] s
  | cons {s s' s'' : σ} {f : List β} {fs : List (List β)} {a : α} {items : List (α × ℕ)}
      (first : ∀ x, d.next s (f ++ x) = .item a f.length s')
      (rest : Frames d s' fs items s'') :
      Frames d s (f :: fs) ((a, f.length) :: items) s''

/-- A concatenation of frames decodes to their items, and decoding goes on behind it. -/
lemma Frames.decodeAll_flatten {d : Decoder σ β α ε} {s s' : σ} {fs : List (List β)}
    {items : List (α × ℕ)} (h : Frames d s fs items s') (x : List β) :
    d.decodeAll s (fs.flatten ++ x) = (d.decodeAll s' x).after items := by
  induction h with
  | nil s => rfl
  | cons first rest ih =>
      rw [List.flatten_cons, List.append_assoc, d.decodeAll_of_item (first _), List.drop_left, ih,
        Decoded.after_after, List.singleton_append]

/-- A concatenation of frames and nothing else decodes to its items and leaves nothing. -/
lemma Frames.decodeAll_eq {d : Decoder σ β α ε} {s s' : σ} {fs : List (List β)}
    {items : List (α × ℕ)} (h : Frames d s fs items s') (hnil : d.next s' [] = .more) :
    d.decodeAll s fs.flatten = ⟨items, none, [], s'⟩ := by
  have hflat := h.decodeAll_flatten []
  rw [List.append_nil, d.decodeAll_of_more hnil] at hflat
  rw [hflat, Decoded.after, List.append_nil]

end Decoder

end Snova
