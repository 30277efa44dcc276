import Snova.Framework.Decimal
import Snova.Model.Address
import Snova.Model.TunnelServer
import Snova.Properties.HttpProxy
import Snova.Properties.Ports

/-!
# Addresses can be read back

`NetAddress::Parse` gives back the address that `NetAddress::String` printed, if its parts do not
hold the delimiters behind which they are looked for (`NetAddress.Separable`).  The path may hold
slashes and colons, as only the first slash ends the host and the port.
-/

namespace Snova

namespace Address

variable {delim text : Bytes} {b : UInt8}

/-! ## Splitting -/

lemma strSplit_skip (skipped rest : Bytes) :
    strSplit delim skipped.length (skipped ++ rest) = strSplit delim 0 rest := by
  induction skipped with
  | nil => rfl
  | cons b skipped ih =>
      rw [List.length_cons, List.cons_append, strSplit]
      exact ih

lemma strSplit_delim (hne : delim ≠ []) (rest : Bytes) :
    strSplit delim 0 (delim ++ rest) = [] :: strSplit delim 0 rest := by
  obtain ⟨d, ds, rfl⟩ := List.exists_cons_of_ne_nil hne
  rw [List.cons_append, strSplit, ← List.cons_append,
    if_pos (List.isPrefixOf_iff_prefix.mpr (List.prefix_append _ _)), List.length_cons,
    Nat.add_sub_cancel, strSplit_skip]

lemma strSplit_cons (h : ¬ delim <+: b :: text) :
    strSplit delim 0 (b :: text) = (strSplit delim 0 text).modifyHead (b :: ·) := by
  rw [strSplit, if_neg fun hprefix => h (List.isPrefixOf_iff_prefix.mp hprefix)]

/-- Nothing is split before the first byte of the delimiter. -/
lemma strSplit_append {d : UInt8} {ds before : Bytes} (h : d ∉ before) (rest : Bytes) :
    strSplit (d :: ds) 0 (before ++ rest)
      = (strSplit (d :: ds) 0 rest).modifyHead (before ++ ·) := by
  induction before with
  | nil =>
      show strSplit (d :: ds) 0 rest = (strSplit (d :: ds) 0 rest).modifyHead id
      rw [List.modifyHead_id, id_eq]
  | cons b before ih =>
      rw [List.mem_cons, not_or] at h
      rw [List.cons_append, strSplit_cons fun hprefix => h.1 (List.cons_prefix_cons.mp hprefix).1,
        ih h.2, List.modifyHead_modifyHead]
      rfl

lemma strSplit_of_not_infix (h : ¬ delim <:+: text) :
    strSplit delim 0 text = [text] := by
  induction text with
  | nil => rfl
  | cons b text ih =>
      rw [List.infix_cons_iff, not_or] at h
      rw [strSplit_cons h.1, ih h.2]
      rfl

/-- The search for one byte finds the first one. -/
lemma find_singleton {before : Bytes} (h : b ∉ before) (rest : Bytes) :
    find [b] (before ++ b :: rest) = some before.length := by
  rw [find_eq_some_iff]
  refine ⟨?_, ?_⟩
  · rw [OccursAt, List.drop_left]
    exact List.prefix_append [b] rest
  · intro j hj hocc
    rw [OccursAt, List.drop_append_of_le_length hj.le, List.drop_eq_getElem_cons hj] at hocc
    exact h ((List.cons_prefix_cons.mp hocc).1 ▸ List.getElem_mem hj)

lemma find_singleton_of_notMem (h : b ∉ text) : find [b] text = none := by
  cases hfind : find [b] text with
  | none => rfl
  | some pos =>
      have hocc := (find_eq_some_iff.mp hfind).occurs
      have hmem : b ∈ text.drop pos := List.IsPrefix.mem List.mem_cons_self hocc
      exact absurd (List.mem_of_mem_drop hmem) h

/-! ## The round trip -/

/-- The parts of the address do not hold the delimiters behind which they are looked for. -/
structure NetAddress.Separable (a : NetAddress) : Prop where
  schema : (58 : UInt8) ∉ a.schema
  host_ne_nil : a.host ≠ []
  host_colon : (58 : UInt8) ∉ a.host
  host_slash : (47 : UInt8) ∉ a.host
  path : ¬ schemaEnd <:+: a.path
  port : a.port = 0 → defaultPort a.schema = none

namespace NetAddress

variable {a : NetAddress}

/-- The host and the port of an address, and its path, as they are printed. -/
def hostPortPart (a : NetAddress) : Bytes := a.host ++ 58 :: digitBytes a.port.toNat

def pathPart (a : NetAddress) : Bytes := if a.path = [] then [] else 47 :: a.path

lemma string_eq (a : NetAddress) :
    a.string =
      (if a.schema = [] then [] else a.schema ++ schemaEnd) ++ (a.hostPortPart ++ a.pathPart) :=
  rfl

lemma notMem_digitBytes {n : ℕ} (h : isDigitByte b = false) : b ∉ digitBytes n := fun hmem => by
  rw [isDigitByte_of_mem hmem] at h
  cases h

/-- Behind the schema there is no other delimiter of a schema. -/
lemma strSplit_url (h : a.Separable) :
    strSplit schemaEnd 0 (a.hostPortPart ++ a.pathPart) = [a.hostPortPart ++ a.pathPart] := by
  have hpath : strSplit schemaEnd 0 a.pathPart = [a.pathPart] := by
    rw [pathPart]
    split
    · rfl
    · have hslash : ¬ schemaEnd <+: 47 :: a.path := fun hprefix =>
        absurd (List.cons_prefix_cons.mp hprefix).1 (by decide)
      rw [strSplit_cons hslash, strSplit_of_not_infix h.path]
      rfl
  have hdigits : strSplit schemaEnd 0 (digitBytes a.port.toNat ++ a.pathPart)
      = [digitBytes a.port.toNat ++ a.pathPart] := by
    rw [schemaEnd, strSplit_append (notMem_digitBytes rfl), ← schemaEnd, hpath]
    rfl
  -- the colon before the port is followed by a digit
  have hcolon : ¬ schemaEnd <+: 58 :: (digitBytes a.port.toNat ++ a.pathPart) := by
    intro hprefix
    obtain ⟨d, ds, hd⟩ := List.exists_cons_of_ne_nil (isDecimal_digitBytes a.port.toNat).ne_nil
    rw [hd] at hprefix
    have heq := (List.cons_prefix_cons.mp (List.cons_prefix_cons.mp hprefix).2).1
    have hdigit : isDigitByte d = true := isDigitByte_of_mem (hd ▸ List.mem_cons_self)
    rw [← heq] at hdigit
    cases hdigit
  rw [hostPortPart, List.append_assoc, List.cons_append, schemaEnd, strSplit_append h.host_colon,
    ← schemaEnd, strSplit_cons hcolon, hdigits]
  rfl

lemma splitSchema_string (h : a.Separable) :
    splitSchema a.string = (a.schema, a.hostPortPart ++ a.pathPart) := by
  rw [splitSchema, string_eq]
  by_cases hschema : a.schema = []
  · rw [if_pos hschema, List.nil_append, strSplit_url h, hschema]
  · rw [if_neg hschema, List.append_assoc, schemaEnd, strSplit_append h.schema, ← schemaEnd,
      strSplit_delim (by decide), strSplit_url h, List.modifyHead_cons, List.append_nil]

lemma splitPath_url (h : a.Separable) :
    splitPath (a.hostPortPart ++ a.pathPart) = (a.hostPortPart, a.path) := by
  have hslash : (47 : UInt8) ∉ a.hostPortPart := by
    rw [hostPortPart, List.mem_append, List.mem_cons, not_or, not_or]
    exact ⟨h.host_slash, by decide, notMem_digitBytes rfl⟩
  rw [splitPath, pathPart]
  by_cases hpath : a.path = []
  · rw [if_pos hpath, List.append_nil, find_singleton_of_notMem hslash, hpath]
  · rw [if_neg hpath, find_singleton hslash]
    dsimp only
    rw [List.take_left, List.drop_append, List.drop_of_length_le (Nat.le_succ _),
      Nat.add_sub_cancel_left]
    rfl

/-- **An address can be read back.**  What `NetAddress::String` prints for an address, with a schema
or without one and with a path or without one, `NetAddress::Parse` reads as this address. -/
theorem parse_string (a : NetAddress) (h : a.Separable) : parse a.string = some a := by
  have hport : IsPort (digitBytes a.port.toNat) a.port :=
    ⟨isDecimal_digitBytes _, decimalValue_digitBytes _⟩
  have hsplit : a.hostPortPart.splitOn 58 = [a.host, digitBytes a.port.toNat] := by
    rw [hostPortPart, List.splitOn_append_cons_self_of_not_mem h.host_colon,
      List.splitOn_eq_singleton (notMem_digitBytes rfl)]
  rw [netAddress_parse_eq, addressHostPort, splitSchema_string h]
  dsimp only
  rw [splitPath_url h]
  dsimp only
  rw [hport.hostAndPort hsplit, Option.map_some, if_neg h.host_ne_nil, orDefault_eq h.port]

/-- `https://h:8443/a:b/c` -/
theorem parse_string_https :
    parse (string ⟨ascii "https".toList, ascii "h".toList, 8443, ascii "a:b/c".toList⟩) =
      some ⟨ascii "https".toList, ascii "h".toList, 8443, ascii "a:b/c".toList⟩ :=
  parse_string _ ⟨by decide, by decide, by decide, by decide, by decide, by decide⟩

/-- Tunnels print their addresses without a schema and a path. -/
lemma string_hostPort (addr : Snova.NetAddress) :
    string ⟨[], addr.host, addr.port, []⟩ = addr.string := by
  rw [string_eq, if_pos rfl, List.nil_append, pathPart, if_pos rfl, List.append_nil]
  rfl

end NetAddress

end Address

end Snova
