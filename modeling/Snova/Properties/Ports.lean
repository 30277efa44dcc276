import Snova.Framework.Decimal
import Snova.Model.Address

/-!
# Ports in text

A port is read from text in three places: in an address, in a tunnel option and in the `Host` header
of a request.  `std::stoi` and `absl::SimpleAtoi` read a number of 32 bits, and the upper 16 are
lost when it is stored.  `stoi` also takes the number a text begins with and leaves the rest.  So a
field that is no port is accepted unless the conversion fails (`ports_iff`).
-/

namespace Snova

open Address

variable {field hostPort : Bytes} {port : UInt16}

/-- The field is the decimal number of the port. -/
structure IsPort (field : Bytes) (port : UInt16) : Prop where
  decimal : IsDecimal field
  value_eq : decimalValue field = port.toNat

/-- The text behind the one colon. -/
def HasPortField (hostPort field : Bytes) : Prop := ∃ host, hostPort.splitOn 58 = [host, field]

/-- The part of an address with the host and the port. -/
def addressHostPort (addr : Bytes) : Bytes := (splitPath (splitSchema addr).2).1

/-! ## The conversions -/

lemma isDigitByte_not_space {b : UInt8} (h : isDigitByte b = true) : asciiIsSpace b = false := by
  obtain ⟨hge, -⟩ := isDigitByte_iff.mp h
  rw [← Bool.not_eq_true, asciiIsSpace, Bool.or_eq_true, Bool.and_eq_true, decide_eq_true_iff,
    decide_eq_true_iff, decide_eq_true_iff, UInt8.le_iff_toNat_le, UInt8.le_iff_toNat_le]
  rintro (rfl | ⟨-, hle⟩)
  · exact absurd hge (by decide)
  · have hle : b.toNat ≤ 13 := hle
    omega

lemma foldl_eq_decimalValue {digits : Bytes} (h : ∀ b ∈ digits, isDigitByte b = true) :
    (digits.foldl (fun acc b => 10 * acc + ((b.toNat : ℤ) - 48)) 0) = decimalValue digits := by
  induction digits using List.reverseRecOn with
  | nil => rfl
  | append_singleton digits b ih =>
      have hb : 48 ≤ b.toNat := (isDigitByte_iff.mp (h b (by simp))).1
      rw [List.foldl_append, decimalValue_append_singleton,
        ih fun b hb => h b (List.mem_append_left _ hb)]
      show 10 * (decimalValue digits : ℤ) + ((b.toNat : ℤ) - 48) = _
      omega

lemma IsDecimal.stoi (h : IsDecimal field) (hlt : decimalValue field < 2 ^ 31) :
    stoi field = some (decimalValue field : ℤ) := by
  obtain ⟨b, rest, rfl⟩ := List.exists_cons_of_ne_nil h.ne_nil
  have hb := isDigitByte_iff.mp (h.digits b List.mem_cons_self)
  have hspace : (b :: rest).dropWhile asciiIsSpace = b :: rest := by
    rw [List.dropWhile_cons_of_neg]
    rw [isDigitByte_not_space (h.digits b List.mem_cons_self)]
    exact Bool.false_ne_true
  have hminus : (b :: rest).head? ≠ some 45 := by
    rintro heq
    rw [Option.some.inj heq] at hb
    exact absurd hb.1 (by decide)
  have hplus : (b :: rest).head? ≠ some 43 := by
    rintro heq
    rw [Option.some.inj heq] at hb
    exact absurd hb.1 (by decide)
  have hdigits : (b :: rest).takeWhile (fun b => 48 ≤ b && b ≤ 57) = b :: rest :=
    List.takeWhile_eq_self_iff.mpr h.digits
  rw [Snova.stoi, hspace]
  simp only [hminus, hplus, or_self, if_false, hdigits, foldl_eq_decimalValue h.digits,
    reduceCtorEq]
  exact if_pos (by omega)

lemma stripAsciiWhitespace_of_digits (h : ∀ b ∈ field, isDigitByte b = true) :
    stripAsciiWhitespace field = field := by
  have hself : ∀ text : Bytes, (∀ b ∈ text, isDigitByte b = true) →
      text.dropWhile asciiIsSpace = text := fun text htext => by
    cases text with
    | nil => rfl
    | cons b text =>
        rw [List.dropWhile_cons_of_neg]
        rw [isDigitByte_not_space (htext b List.mem_cons_self)]
        exact Bool.false_ne_true
  rw [stripAsciiWhitespace, hself field h,
    hself field.reverse fun b hb => h b (List.mem_reverse.mp hb), List.reverse_reverse]

lemma IsDecimal.simpleAtoi (h : IsDecimal field) (hlt : decimalValue field < 2 ^ 32) :
    simpleAtoi field = some (decimalValue field) := by
  have hplus : field.head? ≠ some 43 := by
    intro heq
    have hdigit := isDigitByte_iff.mp (h.digits 43 (List.mem_of_mem_head? heq))
    exact absurd hdigit.1 (by decide)
  have hdigits : ∀ b ∈ field, 48 ≤ b ∧ b ≤ 57 := fun b hb => isDigitByte_iff.mp (h.digits b hb)
  rw [Snova.simpleAtoi, stripAsciiWhitespace_of_digits h.digits]
  simp only [hplus, if_false]
  rw [if_pos ⟨h.ne_nil, hdigits⟩]
  exact if_pos hlt

lemma IsPort.stoi (h : IsPort field port) : stoi field = some (port.toNat : ℤ) := by
  have hlt : port.toNat < 65536 := port.toNat_lt
  rw [h.decimal.stoi (by rw [h.value_eq]; omega), h.value_eq]

lemma IsPort.simpleAtoi (h : IsPort field port) : simpleAtoi field = some port.toNat := by
  have hlt : port.toNat < 65536 := port.toNat_lt
  rw [h.decimal.simpleAtoi (by rw [h.value_eq]; omega), h.value_eq]

lemma ofInt_toNat (port : UInt16) : UInt16.ofInt port.toNat = port := by
  have hlt : port.toNat < 65536 := port.toNat_lt
  rw [UInt16.ofInt, ← UInt16.toNat_inj, UInt16.toNat_ofNat']
  omega

lemma IsPort.hostAndPort {host : Bytes} (h : IsPort field port)
    (hsplit : hostPort.splitOn 58 = [host, field]) : hostAndPort hostPort = some (host, port) := by
  rw [Snova.hostAndPort, hsplit]
  dsimp only
  rw [h.stoi, Option.map_some, ofInt_toNat]

/-- If the conversion fails, so does the parser. -/
lemma hostAndPort_of_stoi_eq_none {host : Bytes} (hsplit : hostPort.splitOn 58 = [host, field])
    (h : stoi field = none) : hostAndPort hostPort = none := by
  rw [hostAndPort, hsplit]
  dsimp only
  rw [h, Option.map_none]

/-! ## The three places -/

/-- The port of an address, behind the default of its schema. -/
def orDefault (schema : Bytes) (port : UInt16) : UInt16 :=
  if port = 0 then (defaultPort schema).getD port else port

lemma orDefault_eq {schema : Bytes} (h : port = 0 → defaultPort schema = none) :
    orDefault schema port = port := by
  rw [orDefault]
  split
  · next hzero => rw [h hzero, Option.getD_none]
  · rfl

/-- An address is rejected if the conversion fails, and nowhere else. -/
lemma netAddress_parse_eq (addr : Bytes) :
    NetAddress.parse addr = (hostAndPort (addressHostPort addr)).map fun target =>
      ⟨(splitSchema addr).1, if target.1 = [] then ascii "0.0.0.0".toList else target.1,
        orDefault (splitSchema addr).1 target.2, (splitPath (splitSchema addr).2).2⟩ := by
  rw [NetAddress.parse, addressHostPort]
  rcases splitSchema addr with ⟨schema, urlPart⟩
  dsimp only
  rcases splitPath urlPart with ⟨hostPortPart, path⟩
  dsimp only
  cases hostAndPort hostPortPart with
  | none => rfl
  | some target => rfl

lemma defaultPort_ne_zero {schema : Bytes} (h : defaultPort schema = some port) : port ≠ 0 := by
  rw [defaultPort] at h
  split_ifs at h
  all_goals
    rw [← Option.some.inj h]
    decide

/-- Where `stoi` takes a number, it is stored modulo `2 ^ 16`. -/
lemma hostAndPort_of_stoi {host : Bytes} {value : ℤ} (hsplit : hostPort.splitOn 58 = [host, field])
    (h : stoi field = some value) : hostAndPort hostPort = some (host, UInt16.ofInt value) := by
  rw [hostAndPort, hsplit]
  dsimp only
  rw [h, Option.map_some]

/-- A field that has been accepted with the right port. -/
lemma IsPort.eq_ofInt {value : ℤ} (h : IsPort field port) (hstoi : Snova.stoi field = some value) :
    UInt16.ofInt value = port := by
  rw [h.stoi] at hstoi
  rw [← Option.some.inj hstoi, ofInt_toNat]

/-- `NetAddress::Parse` meets the law exactly if it rejects the field, or the field is a port that
the schema does not replace. -/
lemma netAddress_port_iff {addr : Bytes} (hfield : HasPortField (addressHostPort addr) field) :
    (∀ a, NetAddress.parse addr = some a → IsPort field a.port) ↔
      stoi field = none ∨
        ∃ port, IsPort field port ∧ (port = 0 → defaultPort (splitSchema addr).1 = none) := by
  obtain ⟨host, hsplit⟩ := hfield
  rw [netAddress_parse_eq]
  cases hstoi : stoi field with
  | none =>
      rw [hostAndPort_of_stoi_eq_none hsplit hstoi]
      exact iff_of_true (fun a ha => by cases ha) (.inl rfl)
  | some value =>
      rw [hostAndPort_of_stoi hsplit hstoi, Option.map_some,
        or_iff_right (Option.some_ne_none value)]
      constructor
      · intro h
        have hport := h _ rfl
        refine ⟨_, hport, fun hzero => ?_⟩
        have heq := hport.eq_ofInt hstoi
        dsimp only at heq hzero
        rw [hzero] at heq
        rw [heq, orDefault, if_pos rfl] at hzero
        cases hdefault : defaultPort (splitSchema addr).1 with
        | none => rfl
        | some port =>
            rw [hdefault] at hzero
            exact absurd hzero (defaultPort_ne_zero hdefault)
      · rintro ⟨port, hport, hzero⟩ a ha
        rw [← Option.some.inj ha, hport.eq_ofInt hstoi]
        show IsPort field (orDefault (splitSchema addr).1 port)
        rwa [orDefault_eq hzero]

/-- `parse_tunnel_opt` meets the law exactly if it rejects one of the fields, or both are ports. -/
lemma parseTunnelOpt_iff {addr part₀ host part₂ : Bytes}
    (hsplit : addr.splitOn 58 = [part₀, host, part₂]) :
    (∀ opt, parseTunnelOpt addr = some opt → IsPort part₀ opt.1 ∧ IsPort part₂ opt.2.2) ↔
      simpleAtoi part₀ = none ∨ simpleAtoi part₂ = none ∨
        (∃ port, IsPort part₀ port) ∧ ∃ port, IsPort part₂ port := by
  rw [parseTunnelOpt, hsplit]
  dsimp only
  cases hport₀ : simpleAtoi part₀ with
  | none => exact iff_of_true (fun opt hopt => by cases hopt) (.inl rfl)
  | some port₀ =>
      cases hport₂ : simpleAtoi part₂ with
      | none => exact iff_of_true (fun opt hopt => by cases hopt) (.inr (.inl rfl))
      | some port₂ =>
          rw [or_iff_right (Option.some_ne_none port₀), or_iff_right (Option.some_ne_none port₂)]
          constructor
          · intro h
            obtain ⟨h₀, h₂⟩ := h _ rfl
            exact ⟨⟨_, h₀⟩, _, h₂⟩
          · rintro ⟨⟨port, h₀⟩, port', h₂⟩ opt hopt
            rw [h₀.simpleAtoi] at hport₀
            rw [h₂.simpleAtoi] at hport₂
            rw [← Option.some.inj hopt, ← Option.some.inj hport₀, ← Option.some.inj hport₂]
            dsimp only
            rw [UInt16.ofNat_toNat, UInt16.ofNat_toNat]
            exact ⟨h₀, h₂⟩

/-- The port of a route behind its default. -/
lemma httpRoute_eq {headers : Bytes}
    (h : parseHttpHostport (stripAsciiWhitespace headers) = some hostPort) :
    httpRoute headers = (hostAndPort hostPort).bind fun target =>
      (find [32] (stripAsciiWhitespace headers)).map fun pos =>
        methodRoute ((stripAsciiWhitespace headers).take pos) target := by
  simp only [httpRoute, h, Option.bind_eq_bind, Option.bind_some]
  cases hostAndPort hostPort with
  | none => rfl
  | some target =>
      cases find [32] (stripAsciiWhitespace headers) with
      | none => rfl
      | some pos => rfl

lemma methodRoute_remotePort (method : Bytes) (target : Bytes × UInt16) :
    (target.2 ≠ 0 → (methodRoute method target).remotePort = target.2) ∧
      (methodRoute method target).remotePort ≠ 0 := by
  rw [methodRoute]
  split
  · dsimp only
    split
    · next hzero => exact ⟨fun h => absurd hzero h, by decide⟩
    · next hne => exact ⟨fun _ => rfl, hne⟩
  · dsimp only
    split
    · next hzero => exact ⟨fun h => absurd hzero h, by decide⟩
    · next hne => exact ⟨fun _ => rfl, hne⟩

/-- The handler of HTTP requests meets the law exactly if it rejects the field, or the request has
no method, or the field is a port other than 0. -/
lemma httpRoute_port_iff {headers : Bytes}
    (h : parseHttpHostport (stripAsciiWhitespace headers) = some hostPort)
    (hfield : HasPortField hostPort field) :
    (∀ route, httpRoute headers = some route → IsPort field route.remotePort) ↔
      stoi field = none ∨ find [32] (stripAsciiWhitespace headers) = none ∨
        ∃ port, IsPort field port ∧ port ≠ 0 := by
  obtain ⟨host, hsplit⟩ := hfield
  rw [httpRoute_eq h]
  cases hstoi : stoi field with
  | none =>
      rw [hostAndPort_of_stoi_eq_none hsplit hstoi]
      exact iff_of_true (fun route hroute => by cases hroute) (.inl rfl)
  | some value =>
      rw [hostAndPort_of_stoi hsplit hstoi, Option.bind_some,
        or_iff_right (Option.some_ne_none value)]
      cases hmethod : find [32] (stripAsciiWhitespace headers) with
      | none => exact iff_of_true (fun route hroute => by cases hroute) (.inl rfl)
      | some pos =>
          rw [Option.map_some, or_iff_right (Option.some_ne_none pos)]
          constructor
          · intro hroute
            exact ⟨_, hroute _ rfl, (methodRoute_remotePort _ _).2⟩
          · rintro ⟨port, hport, hne⟩ route hroute
            rw [← Option.some.inj hroute, hport.eq_ofInt hstoi,
              (methodRoute_remotePort _ (host, port)).1 hne]
            exact hport

/-- **Which port fields are read right.**  Whether a text is read as an address, as a tunnel option
or as the headers of a request: a port field in it is accepted as its own decimal number and nothing
else if and only if the conversion rejects the field or it is a port (and, where a port of 0 stands
for a default, not 0). -/
theorem ports_iff (text : Bytes) :
    (∀ field, HasPortField (addressHostPort text) field →
      ((∀ a, NetAddress.parse text = some a → IsPort field a.port) ↔
        stoi field = none ∨
          ∃ port, IsPort field port ∧ (port = 0 → defaultPort (splitSchema text).1 = none))) ∧
    (∀ opt part₀ host part₂, text.splitOn 58 = [part₀, host, part₂] →
      (((LocalTunnelOption.parse text opt).1 = true →
          IsPort part₀ (LocalTunnelOption.parse text opt).2.localPort ∧
            IsPort part₂ (LocalTunnelOption.parse text opt).2.remotePort) ↔
        simpleAtoi part₀ = none ∨ simpleAtoi part₂ = none ∨
          (∃ port, IsPort part₀ port) ∧ ∃ port, IsPort part₂ port)) ∧
    (∀ opt part₀ host part₂, text.splitOn 58 = [part₀, host, part₂] →
      (((RemoteTunnelOption.parse text opt).1 = true →
          IsPort part₀ (RemoteTunnelOption.parse text opt).2.remotePort ∧
            IsPort part₂ (RemoteTunnelOption.parse text opt).2.localPort) ↔
        simpleAtoi part₀ = none ∨ simpleAtoi part₂ = none ∨
          (∃ port, IsPort part₀ port) ∧ ∃ port, IsPort part₂ port)) ∧
    ∀ hostPort field, parseHttpHostport (stripAsciiWhitespace text) = some hostPort →
      HasPortField hostPort field →
      ((∀ route, httpRoute text = some route → IsPort field route.remotePort) ↔
        stoi field = none ∨ find [32] (stripAsciiWhitespace text) = none ∨
          ∃ port, IsPort field port ∧ port ≠ 0) := by
  refine ⟨fun field => netAddress_port_iff, ?_, ?_, fun hostPort field => httpRoute_port_iff⟩
  · intro opt part₀ host part₂ hsplit
    rw [← parseTunnelOpt_iff hsplit, LocalTunnelOption.parse]
    cases parseTunnelOpt text with
    | none => exact iff_of_true (fun h => by cases h) (fun opt h => by cases h)
    | some opt =>
        exact ⟨fun h opt' hopt => Option.some.inj hopt ▸ h rfl, fun h _ => h opt rfl⟩
  · intro opt part₀ host part₂ hsplit
    rw [← parseTunnelOpt_iff hsplit, RemoteTunnelOption.parse]
    cases parseTunnelOpt text with
    | none => exact iff_of_true (fun h => by cases h) (fun opt h => by cases h)
    | some opt =>
        exact ⟨fun h opt' hopt => Option.some.inj hopt ▸ h rfl, fun h _ => h opt rfl⟩

/-- The port of `h:80` is read right. -/
theorem port_80_of_address : IsPort (ascii "80".toList) 80 :=
  ((ports_iff (ascii "h:80".toList)).1 (ascii "80".toList)
    ⟨ascii "h".toList, by decide +kernel⟩).mpr
    (.inr ⟨80, ⟨⟨by decide +kernel, by decide +kernel⟩, by decide +kernel⟩, by decide⟩)
    ⟨[], ascii "h".toList, 80, []⟩ (by decide +kernel)

/-- 65617 is read as 81, everywhere. -/
theorem port_65617_read_as_81 :
    (HasPortField (addressHostPort (ascii "h:65617".toList)) (ascii "65617".toList) ∧
      ¬ ∀ a, NetAddress.parse (ascii "h:65617".toList) = some a →
        IsPort (ascii "65617".toList) a.port) ∧
    (parseTunnelOpt (ascii "65617:h:80".toList) = some (81, ascii "h".toList, 80) ∧
      ¬ IsPort (ascii "65617".toList) 81) ∧
    ¬ ∀ route, httpRoute (ascii "GET /\r\nHost:h:65617\r\nA:b".toList) = some route →
      IsPort (ascii "65617".toList) route.remotePort := by
  have hnot : ¬ IsPort (ascii "65617".toList) 81 := fun h =>
    absurd h.value_eq (by decide +kernel)
  refine ⟨⟨⟨ascii "h".toList, by decide +kernel⟩, fun h => hnot ?_⟩, ⟨by decide +kernel, hnot⟩,
    fun h => hnot ?_⟩
  · exact h ⟨[], ascii "h".toList, 81, []⟩ (by decide +kernel)
  · exact h ⟨false, ascii "h".toList, 81, false⟩ (by decide +kernel)

end Snova
