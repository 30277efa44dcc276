import Snova.Properties.SniReads

/-!
# The server name of a ClientHello

What a ClientHello is made of, with its bytes (`ClientHello.handshake`), and the TLS record it is
sent in (`tlsRecord`).  From the record `parse_sni` takes the first host name of the first server
name extension, whatever the other parts hold and whatever follows the record; from less than the
record it takes nothing (`parseSni_clientHello`).
-/

namespace Snova

open SniReads

/-! ## The format -/

/-- An entry of a server name list. -/
structure ServerName where
  nameType : UInt8
  name : Bytes
  length_lt : name.length < 2 ^ 16

def ServerName.bytes (entry : ServerName) : Bytes :=
  entry.nameType :: (toBE 2 entry.name.length ++ entry.name)

/-- The entries of a server name list. -/
def serverNames (entries : List ServerName) : Bytes := entries.flatMap ServerName.bytes

/-- The data of a server name extension. -/
def serverNameList (entries : List ServerName) : Bytes :=
  toBE 2 (serverNames entries).length ++ serverNames entries

structure Extension where
  type : UInt16
  data : Bytes
  length_lt : data.length < 2 ^ 16

def Extension.bytes (extension : Extension) : Bytes :=
  toBE 2 extension.type.toNat ++ (toBE 2 extension.data.length ++ extension.data)

/-- The fields of a ClientHello, each short enough for its length. -/
structure ClientHello where
  version : UInt16
  random : Bytes
  sessionId : Bytes
  cipherSuites : Bytes
  compression : Bytes
  extensions : List Extension
  length_random : random.length = 32
  sessionId_lt : sessionId.length < 2 ^ 8
  cipherSuites_lt : cipherSuites.length < 2 ^ 16
  compression_lt : compression.length < 2 ^ 8
  extensions_lt : (extensions.flatMap Extension.bytes).length < 2 ^ 16

namespace ClientHello

def extensionBytes (hello : ClientHello) : Bytes := hello.extensions.flatMap Extension.bytes

def body (hello : ClientHello) : Bytes :=
  toBE 2 hello.version.toNat ++ (hello.random ++
    (UInt8.ofNat hello.sessionId.length :: (hello.sessionId ++
      (toBE 2 hello.cipherSuites.length ++ (hello.cipherSuites ++
        (UInt8.ofNat hello.compression.length :: (hello.compression ++
          (toBE 2 hello.extensionBytes.length ++ hello.extensionBytes))))))))

/-- The handshake message: its type, the length of the body, and the body. -/
def handshake (hello : ClientHello) : Bytes := 1 :: (toBE 3 hello.body.length ++ hello.body)

/-- The first extension of type 0 is a list of server names, whose first host name is `host`. -/
structure Names (hello : ClientHello) (host : Bytes) : Prop where
  ne_nil : host ≠ []
  first : ∃ extension entries,
    hello.extensions.find? (fun x => x.type = 0) = some extension ∧
      extension.data = serverNameList entries ∧
      (entries.find? fun x => x.nameType = 0).map ServerName.name = some host

end ClientHello

/-- A TLS record with a handshake message. -/
def tlsRecord (major minor : UInt8) (fragment : Bytes) : Bytes :=
  0x16 :: major :: minor :: (toBE 2 fragment.length ++ fragment)

/-! ## Numbers in a byte string -/

lemma toBE_two (n : ℕ) : toBE 2 n = [UInt8.ofNat (n / 256), UInt8.ofNat n] := rfl

lemma toNat_toBE_two {n : ℕ} (h : n < 2 ^ 16) :
    (UInt8.ofNat (n / 256)).toNat * 256 + (UInt8.ofNat n).toNat = n := by
  rw [UInt8.toNat_ofNat', UInt8.toNat_ofNat']
  omega

/-- A byte behind a known number of bytes. -/
lemma byteAt_of_eq_append {l rest : Bytes} {b : UInt8} {i : ℕ} (before : Bytes)
    (h : l = before ++ b :: rest) (hi : before.length = i) : byteAt l i = b.toNat := by
  subst h hi
  simp [byteAt]

lemma shortAt_of_eq_append {l rest : Bytes} {n i : ℕ} (before : Bytes)
    (h : l = before ++ (toBE 2 n ++ rest)) (hi : before.length = i) (hn : n < 2 ^ 16) :
    shortAt l i = n := by
  have hhi : byteAt l i = (UInt8.ofNat (n / 256)).toNat :=
    byteAt_of_eq_append before (h.trans (by rw [toBE_two]; rfl)) hi
  have hlo : byteAt l (i + 1) = (UInt8.ofNat n).toNat := by
    have hl : l = (before ++ [UInt8.ofNat (n / 256)]) ++ UInt8.ofNat n :: rest := by
      rw [h, toBE_two, List.append_assoc]
      rfl
    exact byteAt_of_eq_append _ hl (by rw [List.length_append, hi]; rfl)
  rw [shortAt, hhi, hlo, toNat_toBE_two hn]

/-! ## Server names -/

lemma parseServerNames_skip (skipped rest : Bytes) :
    parseServerNames skipped.length (skipped ++ rest) = parseServerNames 0 rest := by
  induction skipped with
  | nil => rfl
  | cons b skipped ih => exact ih

lemma parseServerNames_bytes (entry : ServerName) (rest : Bytes) (h : entry.name ++ rest ≠ []) :
    parseServerNames 0 (entry.bytes ++ rest) =
      if entry.nameType = 0 then .ok entry.name else parseServerNames 0 rest := by
  obtain ⟨next, tail, htail⟩ := List.exists_cons_of_ne_nil h
  have hbytes : entry.bytes ++ rest = entry.nameType :: UInt8.ofNat (entry.name.length / 256) ::
      UInt8.ofNat entry.name.length :: next :: tail := by
    simp [ServerName.bytes, toBE_two, htail]
  rw [hbytes, parseServerNames, toNat_toBE_two entry.length_lt, ← htail]
  rw [if_neg (by rw [List.length_append]; omega), List.take_left, parseServerNames_skip]

/-- The first host name is found behind entries of other types. -/
lemma parseServerNames_serverNames {entries : List ServerName} {host : Bytes} (hne : host ≠ [])
    (h : (entries.find? fun x => x.nameType = 0).map ServerName.name = some host) :
    parseServerNames 0 (serverNames entries) = .ok host := by
  induction entries with
  | nil => cases h
  | cons entry entries ih =>
      have hcons : serverNames (entry :: entries) = entry.bytes ++ serverNames entries :=
        List.flatMap_cons
      by_cases htype : entry.nameType = 0
      · rw [List.find?_cons_of_pos (by simpa using htype)] at h
        have hname : entry.name = host := Option.some.inj h
        rw [hcons, parseServerNames_bytes, if_pos htype, hname]
        rw [hname]
        exact List.append_ne_nil_of_left_ne_nil hne _
      · rw [List.find?_cons_of_neg (by simpa using htype)] at h
        rw [hcons, parseServerNames_bytes, if_neg htype, ih h]
        -- what follows is not empty, as the host name is in it
        intro hnil
        have hparse := ih h
        rw [(List.append_eq_nil_iff.mp hnil).2] at hparse
        cases hparse

lemma parseServerNameExtension_serverNameList {entries : List ServerName} {host : Bytes}
    (hne : host ≠ [])
    (h : (entries.find? fun x => x.nameType = 0).map ServerName.name = some host) :
    parseServerNameExtension (serverNameList entries) = .ok host :=
  (parseServerNames_skip (toBE 2 (serverNames entries).length) _).trans
    (parseServerNames_serverNames hne h)

/-! ## Extensions -/

lemma parseExtensions_skip (skipped rest : Bytes) :
    parseExtensions skipped.length (skipped ++ rest) = parseExtensions 0 rest := by
  induction skipped with
  | nil => rfl
  | cons b skipped ih => exact ih

lemma toBE_two_eq_zero_iff (type : UInt16) :
    UInt8.ofNat (type.toNat / 256) = 0 ∧ UInt8.ofNat type.toNat = 0 ↔ type = 0 := by
  have hlt : type.toNat < 65536 := type.toNat_lt
  rw [← UInt8.toNat_inj, ← UInt8.toNat_inj, ← UInt16.toNat_inj, UInt8.toNat_ofNat',
    UInt8.toNat_ofNat', UInt8.toNat_zero, UInt16.toNat_zero]
  omega

lemma parseExtensions_bytes (extension : Extension) (rest : Bytes) :
    parseExtensions 0 (extension.bytes ++ rest) =
      if extension.type = 0 then parseServerNameExtension extension.data
      else parseExtensions 0 rest := by
  have hbytes : extension.bytes ++ rest = UInt8.ofNat (extension.type.toNat / 256) ::
      UInt8.ofNat extension.type.toNat :: UInt8.ofNat (extension.data.length / 256) ::
      UInt8.ofNat extension.data.length :: (extension.data ++ rest) := by
    simp [Extension.bytes, toBE_two]
  rw [hbytes, parseExtensions, toNat_toBE_two extension.length_lt,
    if_congr (toBE_two_eq_zero_iff extension.type) rfl rfl]
  have hlen : ¬ (extension.data ++ rest).length < extension.data.length := by
    rw [List.length_append]
    omega
  rw [if_neg hlen, List.take_left, parseExtensions_skip]

/-- The first server name extension is found behind other extensions. -/
lemma parseExtensions_extensionBytes {hello : ClientHello} {host : Bytes}
    (h : hello.Names host) : parseExtensions 0 hello.extensionBytes = .ok host := by
  obtain ⟨extension, entries, hfind, hdata, hname⟩ := h.first
  rw [ClientHello.extensionBytes]
  generalize hello.extensions = extensions at hfind
  induction extensions with
  | nil => cases hfind
  | cons first rest ih =>
      rw [List.flatMap_cons, parseExtensions_bytes]
      by_cases htype : first.type = 0
      · rw [List.find?_cons_of_pos (by simpa using htype)] at hfind
        rw [if_pos htype, Option.some.inj hfind, hdata]
        exact parseServerNameExtension_serverNameList h.ne_nil hname
      · rw [List.find?_cons_of_neg (by simpa using htype)] at hfind
        rw [if_neg htype]
        exact ih hfind

/-! ## The record -/

lemma length_tlsRecord (major minor : UInt8) (fragment : Bytes) :
    (tlsRecord major minor fragment).length = fragment.length + 5 := by
  simp only [tlsRecord, List.length_cons, List.length_append, length_toBE]
  omega

/-- The part of a record with a ClientHello before the session id. -/
def tlsRecordHead (hello : ClientHello) (major minor : UInt8) : Bytes :=
  0x16 :: major :: minor :: (toBE 2 hello.handshake.length ++
    (1 :: (toBE 3 hello.body.length ++ (toBE 2 hello.version.toNat ++ hello.random))))

lemma length_tlsRecordHead (hello : ClientHello) (major minor : UInt8) :
    (tlsRecordHead hello major minor).length = 5 + 38 := by
  simp [tlsRecordHead, hello.length_random]

lemma tlsRecord_handshake (hello : ClientHello) (major minor : UInt8) (more : Bytes) :
    tlsRecord major minor hello.handshake ++ more = tlsRecordHead hello major minor ++
      (UInt8.ofNat hello.sessionId.length :: (hello.sessionId ++
        (toBE 2 hello.cipherSuites.length ++ (hello.cipherSuites ++
          (UInt8.ofNat hello.compression.length :: (hello.compression ++
            (toBE 2 hello.extensionBytes.length ++ (hello.extensionBytes ++ more)))))))) := by
  simp [tlsRecord, tlsRecordHead, ClientHello.handshake, ClientHello.body]

/-- Less than a record is not enough. -/
lemma parseSni_take {major minor : UInt8} {fragment : Bytes} (hmajor : 3 ≤ major)
    (hfits : fragment.length < 2 ^ 16) {n : ℕ} (hn : n < (tlsRecord major minor fragment).length) :
    parseSni ((tlsRecord major minor fragment).take n) = .error (-1) := by
  have hlen : ((tlsRecord major minor fragment).take n).length = n := by
    rw [List.length_take, Nat.min_eq_left hn.le]
  rw [parseSni, parseTlsHeader, hlen]
  by_cases hfive : n < 5
  · exact if_pos hfive
  obtain ⟨k, rfl⟩ : ∃ k, n = 5 + k := ⟨n - 5, by omega⟩
  have htake : (tlsRecord major minor fragment).take (5 + k)
      = [0x16, major, minor] ++ (toBE 2 fragment.length ++ fragment.take k) := by
    rw [Nat.add_comm, tlsRecord, toBE_two]
    rfl
  have hheader : shortAt ((tlsRecord major minor fragment).take (5 + k)) 3 = fragment.length :=
    shortAt_of_eq_append [0x16, major, minor] htake rfl hfits
  have hzero : byteAt ((tlsRecord major minor fragment).take (5 + k)) 0 = 22 := by
    rw [htake]
    rfl
  have hone : byteAt ((tlsRecord major minor fragment).take (5 + k)) 1 = major.toNat := by
    rw [htake]
    rfl
  rw [length_tlsRecord] at hn
  rw [hheader, hzero, hone]
  refine (if_neg hfive).trans ?_
  refine (if_neg (by omega)).trans ?_
  refine (if_neg (by omega)).trans ?_
  refine (if_neg (UInt8.le_iff_toNat_le.mp hmajor).not_gt).trans ?_
  exact if_pos (by omega)

lemma parseSni_tlsRecord {hello : ClientHello} {host : Bytes} (h : hello.Names host)
    {major : UInt8} (hmajor : 3 ≤ major) (minor : UInt8) (hfits : hello.handshake.length < 2 ^ 16)
    (more : Bytes) : parseSni (tlsRecord major minor hello.handshake ++ more) = .ok host := by
  have hbody : hello.handshake.length + 5 = 5 + 38 + (1 + hello.sessionId.length)
      + (2 + hello.cipherSuites.length) + (1 + hello.compression.length) + 2
      + hello.extensionBytes.length := by
    simp only [ClientHello.handshake, ClientHello.body, List.length_cons, List.length_append,
      length_toBE, hello.length_random]
    omega
  have hlen : (tlsRecord major minor hello.handshake ++ more).length
      = hello.handshake.length + 5 + more.length := by
    rw [List.length_append, length_tlsRecord]
  have hrecord := tlsRecord_handshake hello major minor more
  have hheader : shortAt (tlsRecord major minor hello.handshake ++ more) 3
      = hello.handshake.length :=
    shortAt_of_eq_append [0x16, major, minor] rfl rfl hfits
  have hfive : byteAt (tlsRecord major minor hello.handshake ++ more) 5 = 1 :=
    byteAt_of_eq_append (0x16 :: major :: minor :: toBE 2 hello.handshake.length) rfl rfl
  have hzero : byteAt (tlsRecord major minor hello.handshake ++ more) 0 = 22 := rfl
  have hone : byteAt (tlsRecord major minor hello.handshake ++ more) 1 = major.toNat := rfl
  generalize tlsRecord major minor hello.handshake ++ more = l
    at hlen hrecord hheader hfive hzero hone ⊢
  have hmin : min l.length (hello.handshake.length + 5) = hello.handshake.length + 5 :=
    Nat.min_eq_right (by omega)
  rw [parseSni, parseTlsHeader, hheader, hfive, hzero, hone, hmin]
  refine (if_neg (by omega)).trans ?_
  refine (if_neg (by omega)).trans ?_
  refine (if_neg (by omega)).trans ?_
  refine (if_neg (UInt8.le_iff_toNat_le.mp hmajor).not_gt).trans ?_
  refine (if_neg (Nat.lt_irrefl _)).trans ?_
  refine (if_neg (by omega)).trans ?_
  refine (if_neg (by omega)).trans ?_
  refine (if_neg (by omega)).trans ?_
  -- the session id
  have hsession : byteAt l (5 + 38) = hello.sessionId.length :=
    (byteAt_of_eq_append _ hrecord (length_tlsRecordHead hello major minor)).trans
      (UInt8.toNat_ofNat_of_lt hello.sessionId_lt)
  rw [hsession]
  refine (if_neg (by omega)).trans ?_
  -- the cipher suites
  rw [List.append_cons, ← List.append_assoc] at hrecord
  have hpos : (tlsRecordHead hello major minor ++ [UInt8.ofNat hello.sessionId.length]
      ++ hello.sessionId).length = 5 + 38 + (1 + hello.sessionId.length) := by
    rw [List.length_append, List.length_append, length_tlsRecordHead, List.length_singleton,
      Nat.add_assoc]
  generalize tlsRecordHead hello major minor ++ [UInt8.ofNat hello.sessionId.length]
    ++ hello.sessionId = before at hrecord hpos
  rw [shortAt_of_eq_append before hrecord hpos hello.cipherSuites_lt]
  refine (if_neg (by omega)).trans ?_
  -- the compression methods
  rw [← List.append_assoc before, ← List.append_assoc _ hello.cipherSuites] at hrecord
  have hpos : (before ++ toBE 2 hello.cipherSuites.length ++ hello.cipherSuites).length
      = 5 + 38 + (1 + hello.sessionId.length) + (2 + hello.cipherSuites.length) := by
    rw [List.length_append, List.length_append, hpos, length_toBE, Nat.add_assoc]
  generalize before ++ toBE 2 hello.cipherSuites.length ++ hello.cipherSuites = before
    at hrecord hpos
  have hcompression := (byteAt_of_eq_append before hrecord hpos).trans
    (UInt8.toNat_ofNat_of_lt hello.compression_lt)
  rw [hcompression]
  refine (if_neg (by omega)).trans ?_
  refine (if_neg (by omega)).trans ?_
  -- the extensions
  rw [List.append_cons, ← List.append_assoc] at hrecord
  have hpos : (before ++ [UInt8.ofNat hello.compression.length] ++ hello.compression).length
      = 5 + 38 + (1 + hello.sessionId.length) + (2 + hello.cipherSuites.length)
        + (1 + hello.compression.length) := by
    rw [List.length_append, List.length_append, hpos, List.length_singleton, Nat.add_assoc]
  generalize before ++ [UInt8.ofNat hello.compression.length] ++ hello.compression = before
    at hrecord hpos
  rw [shortAt_of_eq_append before hrecord hpos hello.extensions_lt]
  refine (if_neg (by omega)).trans ?_
  rw [← List.append_assoc before] at hrecord
  rw [hrecord, List.drop_left' (by rw [List.length_append, hpos, length_toBE]), List.take_left]
  exact parseExtensions_extensionBytes h

/-- **The server name of a ClientHello is found.**  For every ClientHello that names a host, in one
record of major version at least 3: the call on the record and any bytes behind it returns the code
0 and this host, and the call on any proper prefix of the record returns -1. -/
theorem parseSni_clientHello {hello : ClientHello} {host : Bytes} (h : hello.Names host)
    (major minor : UInt8) (hmajor : 3 ≤ major) (hfits : hello.handshake.length < 2 ^ 16)
    (m : ℕ → UInt8) (data : ℕ) (hostname : Bytes) :
    (∀ more n, bytesAt m data n = tlsRecord major minor hello.handshake ++ more →
        (SniReads.parseSni data n hostname).eval m = (0, host)) ∧
      ∀ n < (tlsRecord major minor hello.handshake).length,
        bytesAt m data n = (tlsRecord major minor hello.handshake).take n →
        ((SniReads.parseSni data n hostname).eval m).1 = -1 := by
  constructor
  · intro more n hdata
    rw [eval_parseSni, hdata, parseSni_tlsRecord h hmajor minor hfits more]
    rfl
  · intro n hn hdata
    rw [eval_parseSni, hdata, parseSni_take hmajor hfits hn]
    rfl

/-- A ClientHello that names the host `a`, behind an extension and an entry of other types. -/
def helloForA : ClientHello where
  version := 0x0303
  random := List.replicate 32 7
  sessionId := [1, 2]
  cipherSuites := [0x13, 1]
  compression := [0]
  extensions := [⟨10, [0, 0], by decide⟩,
    ⟨0, serverNameList [⟨1, [98, 99], by decide⟩, ⟨0, [97], by decide⟩], by decide⟩]
  length_random := rfl
  sessionId_lt := by decide
  cipherSuites_lt := by decide
  compression_lt := by decide
  extensions_lt := by decide

lemma helloForA_names : helloForA.Names [97] where
  ne_nil := by decide
  first := ⟨⟨0, serverNameList [⟨1, [98, 99], by decide⟩, ⟨0, [97], by decide⟩], by decide⟩,
    _, rfl, rfl, rfl⟩

/-- A record with `helloForA`, and one byte behind it. -/
def helloMemory (i : ℕ) : UInt8 := (tlsRecord 3 1 helloForA.handshake ++ [255]).getD i 0

theorem parseSni_helloForA :
    (SniReads.parseSni 0 76 []).eval helloMemory = (0, [97]) :=
  (parseSni_clientHello helloForA_names 3 1 (by decide) (by decide +kernel) helloMemory 0 []).1
    [255] 76 (by decide +kernel)

end Snova
