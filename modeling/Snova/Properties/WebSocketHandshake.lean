import Snova.Properties.HttpProxy
import Snova.Model.WebSocketHandshake

/-!
# Where the handshake ends

Each side of a WebSocket takes the first piece it reads for the whole message of the other one.
What that does to the bytes behind the message depends on two things only: whether the piece
reaches the end of the line the side looks for (`headerEnd`), and how long it is.

No byte of what the client sends behind the handshake is in the first piece of the server, for the
client sends nothing before it has heard from the server.
-/

namespace Snova

/-! ## A header in a part of a message -/

/-- Where the line ends that `http_get_header` finds. -/
def headerEnd (text header : Bytes) : Option ℕ := do
  let pos ← find header text
  let endPos ← findFrom crlf text pos
  return endPos + 2

variable {text header rest : Bytes} {k : ℕ}

lemma headerEnd_eq_some_iff : headerEnd text header = some k ↔
    ∃ pos j, FirstAt header text pos ∧ FirstAt crlf (text.drop pos) j ∧ j + pos + 2 = k := by
  constructor
  · intro h
    obtain ⟨pos, hpos, hrest⟩ := Option.bind_eq_some_iff.mp h
    obtain ⟨endPos, hend, hk⟩ := Option.bind_eq_some_iff.mp hrest
    obtain ⟨j, hj, rfl⟩ := Option.map_eq_some_iff.mp hend
    exact ⟨pos, j, find_eq_some_iff.mp hpos, find_eq_some_iff.mp hj, Option.some.inj hk⟩
  · rintro ⟨pos, j, hpos, hj, rfl⟩
    simp only [headerEnd, findFrom, find_eq_some_iff.mpr hpos, find_eq_some_iff.mpr hj,
      Option.bind_eq_bind, Option.bind_some, Option.map_some]
    rfl

lemma headerEnd_le (h : headerEnd text header = some k) : k ≤ text.length := by
  obtain ⟨pos, j, -, hj, rfl⟩ := headerEnd_eq_some_iff.mp h
  have hle := hj.occurs.length_le (by decide)
  rw [List.length_drop] at hle
  simp only [crlf, List.length_cons, List.length_nil] at hle
  omega

/-- What follows does not change where the line ends. -/
lemma headerEnd_append (hheader : header ≠ []) (h : headerEnd text header = some k)
    (rest : Bytes) : headerEnd (text ++ rest) header = some k := by
  obtain ⟨pos, j, hpos, hj, rfl⟩ := headerEnd_eq_some_iff.mp h
  have hle := hpos.occurs.length_le hheader
  refine headerEnd_eq_some_iff.mpr ⟨pos, j, hpos.append hheader rest, ?_, rfl⟩
  rw [List.drop_append_of_le_length (by omega)]
  exact hj.append (by decide) rest

/-- A part that reaches the end of the line has the header. -/
lemma headerEnd_of_append (hheader : 13 ∉ header) (h : headerEnd (text ++ rest) header = some k)
    (hle : k ≤ text.length) : headerEnd text header = some k := by
  obtain ⟨pos, j, hpos, hj, rfl⟩ := headerEnd_eq_some_iff.mp h
  -- the end of the line is not in the header
  have hcr : (text ++ rest)[pos + j]? = some 13 := by
    have hget := hj.occurs.getElem? (j := 0) (by decide)
    rw [List.getElem?_drop] at hget
    exact hget
  have hbehind := hpos.occurs.end_le hcr hheader (by omega)
  refine headerEnd_eq_some_iff.mpr ⟨pos, j, hpos.of_append (by omega), ?_, rfl⟩
  rw [List.drop_append_of_le_length (by omega)] at hj
  refine hj.of_append ?_
  rw [List.length_drop]
  simp only [crlf, List.length_cons, List.length_nil]
  omega

lemma headerEnd_isSome (text header : Bytes) :
    (headerEnd text header).isSome = (httpGetHeader text header).isSome := by
  rw [headerEnd, httpGetHeader]
  cases find header text with
  | none => rfl
  | some pos =>
      simp only [Option.bind_eq_bind, Option.bind_some, crlf]
      cases findFrom [13, 10] text pos with
      | none => rfl
      | some endPos => rfl

/-- The value that is found in a part is the one in the whole. -/
lemma httpGetHeader_append (hheader : header ≠ []) {value : Bytes}
    (h : httpGetHeader text header = some value) (rest : Bytes) :
    httpGetHeader (text ++ rest) header = some value := by
  obtain ⟨pos, hpos, hrest⟩ := Option.bind_eq_some_iff.mp h
  obtain ⟨endPos, hend, hvalue⟩ := Option.bind_eq_some_iff.mp hrest
  obtain ⟨j, hj, rfl⟩ := Option.map_eq_some_iff.mp hend
  have hle := (find_eq_some_iff.mp hpos).occurs.length_le hheader
  have hjle := (find_eq_some_iff.mp hj).occurs.length_le (by decide)
  rw [List.length_drop] at hjle
  simp only [List.length_cons, List.length_nil] at hjle
  have hend' : findFrom [13, 10] (text ++ rest) pos = some (j + pos) := by
    rw [findFrom, List.drop_append_of_le_length (by omega), find_append (by decide) hj]
    rfl
  rw [httpGetHeader, find_append hheader hpos]
  simp only [Option.bind_eq_bind, Option.bind_some, hend']
  rw [← hvalue, List.drop_append_of_le_length (by omega), List.take_append_of_le_length]
  rw [List.length_drop]
  omega

/-- A message with the header on a line of its own. -/
lemma exists_headerEnd (header before mid after : Bytes) :
    ∃ k, headerEnd (before ++ (header ++ (mid ++ (crlf ++ after)))) header = some k := by
  have hocc := occursAt_append (p := header) before (mid ++ (crlf ++ after))
  have hfound := found_find header (before ++ (header ++ (mid ++ (crlf ++ after))))
  cases hpos : find header (before ++ (header ++ (mid ++ (crlf ++ after)))) with
  | none =>
      rw [hpos] at hfound
      exact absurd hocc (hfound _)
  | some pos =>
      rw [hpos] at hfound
      have hle := FirstAt.le hfound hocc
      have hend : OccursAt crlf (before ++ (header ++ (mid ++ (crlf ++ after))))
          (before.length + header.length + mid.length) := by
        have happ := occursAt_append (p := crlf) (before ++ header ++ mid) after
        simpa only [List.append_assoc, List.length_append, Nat.add_assoc] using happ
      obtain ⟨i, hi⟩ := Nat.exists_eq_add_of_le
        (show pos ≤ before.length + header.length + mid.length by omega)
      rw [hi, ← occursAt_drop] at hend
      have hcrlf := found_find crlf
        ((before ++ (header ++ (mid ++ (crlf ++ after)))).drop pos)
      cases hj : find crlf ((before ++ (header ++ (mid ++ (crlf ++ after)))).drop pos) with
      | none =>
          rw [hj] at hcrlf
          exact absurd hend (hcrlf i)
      | some j =>
          rw [hj] at hcrlf
          exact ⟨_, headerEnd_eq_some_iff.mpr ⟨pos, j, hfound, hcrlf, rfl⟩⟩

/-! ## The two messages -/

/-- The header a side looks for. -/
def wsWanted : WsSide → Bytes
  | .client => secWebSocketAccept
  | .server => secWebSocketKey

lemma wsWanted_ne_nil (e : WsSide) : wsWanted e ≠ [] := by
  cases e <;> decide

lemma wsWanted_no_cr (e : WsSide) : 13 ∉ wsWanted e := by
  cases e <;> decide

lemma exists_headerEnd_request (host wsSecKey : Bytes) :
    ∃ k, headerEnd (wsRequest host wsSecKey) (wsWanted .server) = some k := by
  have hkey : ascii "Sec-WebSocket-Key: ".toList = wsWanted .server ++ [32] := by decide
  have hmessage := exists_headerEnd (wsWanted .server)
    (ascii "GET /echo HTTP/1.1".toList ++ crlf ++ (ascii "Host: ".toList ++ host ++ crlf) ++
      (ascii "User-Agent: Go-http-client/1.1".toList ++ crlf) ++
      (ascii "Connection: Upgrade".toList ++ crlf))
    ([32] ++ wsSecKey)
    (ascii "Sec-WebSocket-Version: 13".toList ++ crlf ++
      (ascii "Upgrade: websocket".toList ++ crlf ++ crlf))
  rw [wsRequest, hkey]
  simpa only [List.append_assoc] using hmessage

lemma exists_headerEnd_response (respTextKey : Bytes) :
    ∃ k, headerEnd (wsResponse respTextKey) (wsWanted .client) = some k := by
  have hkey : ascii "Sec-WebSocket-Accept: ".toList = wsWanted .client ++ [32] := by decide
  have hmessage := exists_headerEnd (wsWanted .client)
    (ascii "HTTP/1.1 101 Switching Protocols".toList ++ crlf ++
      (ascii "Upgrade: websocket".toList ++ crlf) ++ (ascii "Connection: Upgrade".toList ++ crlf))
    ([32] ++ respTextKey) crlf
  rw [wsResponse, hkey]
  simpa only [List.append_assoc] using hmessage

/-! ## The two sides -/

/-- The first piece reaches the end of the line, or the side refuses. -/
lemma isSome_iff_of_append {first said rest : Bytes} (e : WsSide) (hsaid : first ++ rest = said)
    (hk : headerEnd said (wsWanted e) = some k) :
    (httpGetHeader first (wsWanted e)).isSome = true ↔ k ≤ first.length := by
  subst hsaid
  rw [← headerEnd_isSome]
  constructor
  · intro hsome
    obtain ⟨j, hj⟩ := Option.isSome_iff_exists.mp hsome
    rw [headerEnd_append (wsWanted_ne_nil e) hj rest, Option.some_inj] at hk
    exact hk ▸ headerEnd_le hj
  · intro hle
    rw [headerEnd_of_append (wsWanted_no_cr e) hk hle]
    rfl

/-- What the server writes when it has read the message of the client. -/
def wsReply (texts : WsTexts) (first : Bytes) : Bytes :=
  match httpGetHeader first secWebSocketKey with
  | none => texts.errorPage
  | some secWsKey => wsResponse (texts.acceptKey secWsKey)

lemma asyncRead_piece {piece : Bytes} {size : ℕ} (hle : piece.length ≤ size) :
    (⟨[], 0, [.ok piece]⟩ : BufferedIo).asyncRead size =
      .ok (piece, ⟨piece, piece.length, []⟩) := by
  simp [BufferedIo.asyncRead, BufferedIo.copyOut, List.take_of_length_le hle]

lemma wsAsyncConnectRead_piece {piece : Bytes} (hle : piece.length ≤ kMaxChunkSize) :
    wsAsyncConnectRead ⟨[], 0, [.ok piece]⟩ =
      .ok (if (httpGetHeader piece secWebSocketAccept).isSome then .ok else .badMessage,
        ⟨piece, piece.length, []⟩) := by
  simp only [wsAsyncConnectRead, asyncRead_piece hle]
  cases hvalue : httpGetHeader piece secWebSocketAccept with
  | none =>
      simp only [hvalue, bind, Except.bind]
      rfl
  | some value =>
      simp only [hvalue, bind, Except.bind]
      rfl

/-- What `AsyncAccept` returns fits to the piece, and no error comes from a write without one. -/
lemma wsAsyncAccept_piece (texts : WsTexts) (piece : Bytes) (hle : piece.length ≤ kMaxChunkSize) :
    ∃ behind, wsAsyncAccept texts ⟨[], 0, [.ok piece]⟩ =
        .ok ((wsReply texts piece, behind), ⟨piece, piece.length, []⟩) ∧
      ∀ wec, (behind wec = some .ok ∧ wec = none ∧
          (httpGetHeader piece secWebSocketKey).isSome = true) ∨
        (behind wec = some .badMessage ∧ httpGetHeader piece secWebSocketKey = none) ∨
        ∃ ec, behind wec = some (.failed ec) := by
  simp only [wsAsyncAccept, asyncRead_piece hle]
  cases hvalue : httpGetHeader piece secWebSocketKey with
  | none =>
      refine ⟨fun _ => some .badMessage, ?_, fun wec => .inr (.inl ⟨rfl, rfl⟩)⟩
      simp only [hvalue, bind, Except.bind, wsReply]
      rfl
  | some value =>
      refine ⟨fun wec => some (wec.elim .ok .failed), ?_, fun wec => ?_⟩
      · simp only [hvalue, bind, Except.bind, wsReply]
        rfl
      · cases wec with
        | none => exact .inl ⟨rfl, rfl, rfl⟩
        | some ec => exact .inr (.inr ⟨ec, rfl⟩)

namespace WsPair

variable {texts : WsTexts} {host wsSecKey : Bytes} {s s' : WsPair} {e d : WsSide}

/-- All that the transport has taken from a side. -/
def spoken (f : WsEnd) : Bytes := f.said ++ f.written

/-- The message of a side, whether the transport has taken it or not. -/
def message (f : WsEnd) : Bytes := f.said ++ f.unsent

/-- The result fits to what a side has read. -/
def Fits (e : WsSide) (f : WsEnd) : WsResult → Prop
  | .ok => (httpGetHeader f.first (wsWanted e)).isSome = true
  | .badMessage => httpGetHeader f.first (wsWanted e) = none
  | .failed _ => True

/-- What a side has made of what the other one has written, `spoken`, of which `rest` is still on
its way. -/
structure Heard (e : WsSide) (f : WsEnd) (spoken rest : Bytes) : Prop where
  unread : f.first = [] → f.io = ⟨[], 0, []⟩ ∧ rest = spoken
  read : f.first ≠ [] → ∃ pieces : List Bytes,
    f.io = ⟨f.first, f.first.length, pieces.map .ok⟩ ∧ f.first ++ pieces.flatten ++ rest = spoken
  early : f.phase = .shaking → f.first = []
  returned : ∀ r, f.phase = .returned r → (∃ ec, r = .failed ec) ∨ f.first ≠ [] ∧ Fits e f r
  -- what the write leads to
  writing : f.phase = .writing → ∀ wec, match f.behind wec with
    | none => wec = none ∧ f.first = []
    | some r => (r = .ok → wec = none) ∧ ((∃ ec, r = .failed ec) ∨ f.first ≠ [] ∧ Fits e f r)
  sent : f.phase = .shaking ∨ f.phase = .returned .ok → f.unsent = []
  silent : f.phase ≠ .returned .ok → f.written = []

lemma Heard.more {f : WsEnd} {spoken rest : Bytes} (h : Heard e f spoken rest) (bs : Bytes) :
    Heard e f (spoken ++ bs) (rest ++ bs) where
  unread hfirst := by
    obtain ⟨hio, hrest⟩ := h.unread hfirst
    exact ⟨hio, by rw [hrest]⟩
  read hfirst := by
    obtain ⟨pieces, hio, hspoken⟩ := h.read hfirst
    exact ⟨pieces, hio, by rw [← hspoken, List.append_assoc _ rest bs]⟩
  early := h.early
  returned := h.returned
  writing := h.writing
  sent := h.sent
  silent := h.silent

/-- The first piece is the beginning of what was written. -/
lemma Heard.first_part {f : WsEnd} {spoken rest : Bytes} (h : Heard e f spoken rest) :
    f.first <+: spoken := by
  by_cases hfirst : f.first = []
  · rw [hfirst]
    exact List.nil_prefix
  · obtain ⟨pieces, -, hspoken⟩ := h.read hfirst
    rw [← hspoken, List.append_assoc]
    exact List.prefix_append _ _

/-- The transport delivers to a side that has been opened. -/
lemma Heard.deliver {f : WsEnd} {spoken rest : Bytes} {n : ℕ} (h : Heard e f spoken rest)
    (hphase : f.phase = .returned .ok) :
    Heard e { f with io := { f.io with source := f.io.source ++ [.ok (rest.take n)] } } spoken
      (rest.drop n) where
  unread hfirst := by
    obtain ⟨ec, hec⟩ | ⟨hne, -⟩ := h.returned _ hphase
    · cases hec
    · exact absurd hfirst hne
  read hfirst := by
    obtain ⟨pieces, hio, hspoken⟩ := h.read hfirst
    refine ⟨pieces ++ [rest.take n], by simp [hio], ?_⟩
    rw [List.flatten_append, List.flatten_singleton, ← List.append_assoc, List.append_assoc,
      List.take_append_drop, hspoken]
  early := h.early
  returned := h.returned
  writing := h.writing
  sent := h.sent
  silent := h.silent

/-- The write of the handshake returns. -/
lemma Heard.wrote {f : WsEnd} {spoken rest : Bytes} {wec : Option Int}
    (h : Heard e f spoken rest) (hphase : f.phase = .writing)
    (hsent : wec = none → f.unsent = []) : Heard e (f.wrote wec) spoken rest := by
  have hwriting := h.writing hphase wec
  have hsilent := h.silent (by rw [hphase]; decide)
  unfold WsEnd.wrote
  cases hbehind : f.behind wec with
  | none =>
      rw [hbehind] at hwriting
      exact ⟨h.unread, h.read, fun _ => hwriting.2, by simp, by simp,
        fun _ => hsent hwriting.1, fun _ => hsilent⟩
  | some r =>
      rw [hbehind] at hwriting
      refine ⟨h.unread, h.read, by simp, fun r' hr' => ?_, by simp, fun hr' => ?_,
        fun _ => hsilent⟩
      · obtain rfl := WsPhase.returned.inj hr'
        exact hwriting.2
      · obtain hshaking | hok := hr'
        · cases hshaking
        · exact hsent (hwriting.1 (WsPhase.returned.inj hok))

/-- The transport takes a part of the message. -/
lemma Heard.sent_part {f : WsEnd} {spoken rest : Bytes} {n : ℕ} (h : Heard e f spoken rest)
    (hphase : f.phase = .writing) : Heard e (f.sent n) spoken rest := by
  have hpart : Heard e { f with
      said := f.said ++ f.unsent.take n
      unsent := f.unsent.drop n } spoken rest :=
    ⟨h.unread, h.read, h.early, h.returned, h.writing, by simp [hphase], h.silent⟩
  unfold WsEnd.sent
  dsimp only
  split
  · next hempty => exact hpart.wrote hphase fun _ => hempty
  · exact hpart

lemma Heard.fail {f : WsEnd} {spoken rest : Bytes} {ec : Int} (h : Heard e f spoken rest)
    (hphase : f.phase = .shaking) :
    Heard e { f with phase := .returned (.failed ec) } spoken rest :=
  ⟨h.unread, h.read, by simp, fun r hr => .inl ⟨ec, (WsPhase.returned.inj hr).symm⟩, by simp,
    by simp, fun _ => h.silent (by rw [hphase]; decide)⟩

lemma Heard.write {f : WsEnd} {spoken rest : Bytes} (h : Heard e f spoken rest)
    (hphase : f.phase = .returned .ok) (bs : Bytes) :
    Heard e { f with written := f.written ++ bs } spoken rest :=
  ⟨h.unread, h.read, h.early, h.returned, h.writing, h.sent, fun hne => absurd hphase hne⟩

/-- The read of the handshake returns the first bytes that were written; `f'` is the side behind
it. -/
lemma Heard.shake {f f' : WsEnd} {spoken rest : Bytes} {n : ℕ} (h : Heard e f spoken rest)
    (hphase : f.phase = .shaking) (hpos : 0 < n) (hn : n ≤ rest.length)
    (hfirst : f'.first = rest.take n)
    (hio : f'.io = ⟨rest.take n, (rest.take n).length, []⟩)
    (hnext : f'.phase = .writing ∧ (∀ wec, ∃ r, f'.behind wec = some r ∧ (r = .ok → wec = none) ∧
        ((∃ ec, r = .failed ec) ∨ Fits e f' r)) ∨
      ∃ r, f'.phase = .returned r ∧ Fits e f' r ∧ f'.unsent = f.unsent)
    (hwritten : f'.written = f.written) : Heard e f' spoken (rest.drop n) := by
  obtain ⟨-, hrest⟩ := h.unread (h.early hphase)
  have hne : f'.first ≠ [] := by
    rw [hfirst, ← List.length_pos_iff, List.length_take]
    omega
  have hsilent := h.silent (by rw [hphase]; decide)
  refine ⟨fun hnil => absurd hnil hne, fun _ => ⟨[], ?_, ?_⟩, ?_, ?_, ?_, ?_,
    fun _ => hwritten.trans hsilent⟩
  · rw [hio, hfirst]
    rfl
  · rw [hfirst, List.flatten_nil, List.append_nil, List.take_append_drop, hrest]
  · obtain ⟨hwriting, -⟩ | ⟨r, hr, -⟩ := hnext
    · simp [hwriting]
    · simp [hr]
  · intro r' hr'
    obtain ⟨hwriting, -⟩ | ⟨r, hr, hfits, -⟩ := hnext
    · rw [hwriting] at hr'
      cases hr'
    · rw [hr] at hr'
      obtain rfl := WsPhase.returned.inj hr'
      exact .inr ⟨hne, hfits⟩
  · intro hphase' wec
    obtain ⟨-, hbehind⟩ | ⟨r, hr, -⟩ := hnext
    · obtain ⟨r, hr, hok, hfits⟩ := hbehind wec
      rw [hr]
      exact ⟨hok, hfits.imp_right fun hfits => ⟨hne, hfits⟩⟩
    · rw [hr] at hphase'
      cases hphase'
  · intro hphase'
    obtain ⟨hwriting, -⟩ | ⟨r, -, -, hunsent⟩ := hnext
    · simp [hwriting] at hphase'
    · rw [hunsent]
      exact h.sent (.inl hphase)

structure Inv (texts : WsTexts) (request : Bytes) (s : WsPair) : Prop where
  heard : ∀ e, Heard e (s.side e) (spoken (s.side e.other)) (s.toward e)
  asked : message (s.side .client) = request
  unasked : (s.side .server).first = [] → message (s.side .server) = []
  answered : (s.side .server).first ≠ [] →
    message (s.side .server) = wsReply texts (s.side .server).first ∧
      (s.side .server).first <+: request
  -- the client has not heard from a server that has not heard from it
  causal : (s.side .client).first ≠ [] → (s.side .server).first ≠ []

lemma inv_init (texts : WsTexts) (host wsSecKey : Bytes) :
    Inv texts (wsRequest host wsSecKey) (init host wsSecKey) where
  heard e := by
    cases e with
    | client =>
        refine ⟨fun _ => ⟨rfl, rfl⟩, by simp [init], by simp [init], by simp [init], ?_,
          by simp [init], fun _ => rfl⟩
        rintro - (_ | ec)
        · exact ⟨rfl, rfl⟩
        · exact ⟨by simp, .inl ⟨ec, rfl⟩⟩
    | server => exact ⟨fun _ => ⟨rfl, rfl⟩, by simp [init], by simp [init], by simp [init],
        by simp [init], by simp [init], fun _ => rfl⟩
  asked := rfl
  unasked _ := rfl
  answered h := absurd rfl h
  causal h := absurd rfl h

lemma eq_or_eq_other (d e : WsSide) : d = e ∨ d = e.other := by
  cases d <;> cases e <;> simp [WsSide.other]

lemma other_ne (e : WsSide) : e.other ≠ e := by
  cases e <;> decide

/-- One side moves, and writes. -/
lemma heard_update {f : WsEnd} {rest : Bytes} (bs : Bytes)
    (h : ∀ e, Heard e (s.side e) (spoken (s.side e.other)) (s.toward e))
    (hself : Heard e f (spoken (s.side e.other)) rest)
    (hspoken : spoken f = spoken (s.side e) ++ bs)
    (hside : s'.side = Function.update s.side e f) (hrest : s'.toward e = rest)
    (hsent : s'.toward e.other = s.toward e.other ++ bs) (d : WsSide) :
    Heard d (s'.side d) (spoken (s'.side d.other)) (s'.toward d) := by
  have htwice : e.other.other = e := by cases e <;> rfl
  rcases eq_or_eq_other d e with rfl | rfl
  · rw [hside, hrest, Function.update_self, Function.update_of_ne (other_ne d)]
    exact hself
  · rw [hside, hsent, htwice, Function.update_self, Function.update_of_ne (other_ne e), hspoken]
    have hmore := h e.other
    rw [htwice] at hmore
    exact hmore.more bs

/-- A step of a side that has no effect on what it has read first, or on its message. -/
lemma Inv.keep {request : Bytes} {f : WsEnd} (h : Inv texts request s)
    (hheard : ∀ d, Heard d (s'.side d) (spoken (s'.side d.other)) (s'.toward d))
    (hside : s'.side = Function.update s.side e f) (hfirst : f.first = (s.side e).first)
    (hmessage : message f = message (s.side e)) : Inv texts request s' := by
  have hsame : ∀ (field : WsEnd → Bytes), field f = field (s.side e) → ∀ d,
      field (s'.side d) = field (s.side d) := by
    intro field hfield d
    rw [hside]
    by_cases hd : d = e
    · rw [hd, Function.update_self, hfield]
    · rw [Function.update_of_ne hd]
  have hfirst' := hsame WsEnd.first hfirst
  have hmessage' := hsame message hmessage
  refine ⟨hheard, ?_, ?_, ?_, ?_⟩
  · rw [hmessage']
    exact h.asked
  · rw [hfirst', hmessage']
    exact h.unasked
  · rw [hfirst', hmessage']
    exact h.answered
  · rw [hfirst', hfirst']
    exact h.causal

/-- A side that has not read anything has not been opened. -/
lemma Heard.not_ok {f : WsEnd} {spoken rest : Bytes} (h : Heard e f spoken rest)
    (hfirst : f.first = []) : f.phase ≠ .returned .ok := by
  intro hphase
  obtain ⟨ec, hec⟩ | ⟨hne, -⟩ := h.returned _ hphase
  · cases hec
  · exact hne hfirst

/-- A server that has not read anything has not said anything. -/
lemma Inv.spoken_server {request : Bytes} (h : Inv texts request s)
    (hfirst : (s.side .server).first = []) : spoken (s.side .server) = [] := by
  have hmessage := h.unasked hfirst
  rw [message, List.append_eq_nil_iff] at hmessage
  rw [spoken, hmessage.1, (h.heard .server).silent ((h.heard .server).not_ok hfirst),
    List.append_nil]

/-- The read of the client's handshake. -/
lemma Inv.shake_client {request : Bytes} {n : ℕ} (h : Inv texts request s)
    (hphase : (s.side .client).phase = .shaking) (hpos : 0 < n)
    (hn : n ≤ (s.toward .client).length) (hle : n ≤ kMaxChunkSize)
    (hstep : handshake texts
      { s with toward := Function.update s.toward .client ((s.toward .client).drop n) } .client
      ((s.toward .client).take n) = some s') : Inv texts request s' := by
  have hself := h.heard .client
  obtain ⟨hio, hrest⟩ := hself.unread (hself.early hphase)
  rw [handshake] at hstep
  simp only [hio, List.nil_append] at hstep
  rw [wsAsyncConnectRead_piece (by rw [List.length_take]; omega)] at hstep
  have hs' := Option.some.inj hstep
  have hside : s'.side = Function.update s.side .client { s.side .client with
      phase := .returned
        (if (httpGetHeader ((s.toward .client).take n) secWebSocketAccept).isSome then .ok
          else .badMessage)
      io := ⟨(s.toward .client).take n, ((s.toward .client).take n).length, []⟩
      first := (s.toward .client).take n } := by
    rw [← hs']
    rfl
  have htoward : s'.toward =
      Function.update s.toward .client ((s.toward .client).drop n) := by
    rw [← hs']
    rfl
  have hserver : s'.side .server = s.side .server := by
    rw [hside, Function.update_of_ne (by decide)]
  refine ⟨?_, ?_, ?_, ?_, fun _ => ?_⟩
  · refine heard_update [] h.heard ?_ (by simp [spoken]) hside
      (by rw [htoward, Function.update_self])
      (by rw [htoward, Function.update_of_ne (by decide), List.append_nil])
    refine hself.shake hphase hpos hn rfl rfl (.inr ⟨_, rfl, ?_, rfl⟩) rfl
    cases hvalue : httpGetHeader ((s.toward .client).take n) secWebSocketAccept with
    | none => simpa [Fits, wsWanted] using hvalue
    | some value => simp [Fits, wsWanted, hvalue]
  · rw [hside, Function.update_self]
    exact h.asked
  · rw [hserver]
    exact h.unasked
  · rw [hserver]
    exact h.answered
  · rw [hserver]
    intro hfirst
    rw [hrest, WsSide.other, h.spoken_server hfirst, List.length_nil] at hn
    omega

/-- The read of the server's handshake. -/
lemma Inv.shake_server {request : Bytes} {n : ℕ} (h : Inv texts request s)
    (hphase : (s.side .server).phase = .shaking) (hpos : 0 < n)
    (hn : n ≤ (s.toward .server).length) (hle : n ≤ kMaxChunkSize)
    (hstep : handshake texts
      { s with toward := Function.update s.toward .server ((s.toward .server).drop n) } .server
      ((s.toward .server).take n) = some s') : Inv texts request s' := by
  have hself := h.heard .server
  have hfirst := hself.early hphase
  obtain ⟨hio, hrest⟩ := hself.unread hfirst
  have hclientFirst : (s.side .client).first = [] := by
    by_contra hne
    exact h.causal hne hfirst
  have hsilent := (h.heard .client).silent ((h.heard .client).not_ok hclientFirst)
  obtain ⟨behind, haccept, hbehind⟩ := wsAsyncAccept_piece texts ((s.toward .server).take n)
    (by rw [List.length_take]; omega)
  rw [handshake] at hstep
  simp only [hio, List.nil_append] at hstep
  rw [haccept] at hstep
  have hs' := Option.some.inj hstep
  have hside : s'.side = Function.update s.side .server { s.side .server with
      phase := .writing
      io := ⟨(s.toward .server).take n, ((s.toward .server).take n).length, []⟩
      first := (s.toward .server).take n
      unsent := wsReply texts ((s.toward .server).take n)
      behind := behind } := by
    rw [← hs']
    rfl
  have htoward : s'.toward =
      Function.update s.toward .server ((s.toward .server).drop n) := by
    rw [← hs']
    rfl
  have hclient : s'.side .client = s.side .client := by
    rw [hside, Function.update_of_ne (by decide)]
  have hsaid : (s.side .server).said = [] := by
    have hmessage := h.unasked hfirst
    rw [message, List.append_eq_nil_iff] at hmessage
    exact hmessage.1
  have hne : (s'.side .server).first ≠ [] := by
    rw [hside, Function.update_self, ← List.length_pos_iff]
    show 0 < ((s.toward .server).take n).length
    rw [List.length_take]
    omega
  refine ⟨?_, ?_, fun hnil => absurd hnil hne, fun _ => ?_, fun _ => hne⟩
  · refine heard_update [] h.heard ?_ (by simp [spoken]) hside
      (by rw [htoward, Function.update_self])
      (by rw [htoward, Function.update_of_ne (by decide), List.append_nil])
    refine hself.shake hphase hpos hn rfl rfl (.inl ⟨rfl, fun wec => ?_⟩) rfl
    obtain ⟨hok, hwec, hsome⟩ | ⟨hbad, hnone⟩ | ⟨ec, hfailed⟩ := hbehind wec
    · exact ⟨_, hok, fun _ => hwec, .inr hsome⟩
    · exact ⟨_, hbad, by simp, .inr hnone⟩
    · exact ⟨_, hfailed, by simp, .inl ⟨ec, rfl⟩⟩
  · rw [hclient]
    exact h.asked
  · rw [hside, Function.update_self]
    refine ⟨?_, ?_⟩
    · simp only [message, hsaid, List.nil_append]
    · show (s.toward .server).take n <+: request
      rw [hrest, ← h.asked, spoken, WsSide.other, hsilent, List.append_nil]
      exact (List.take_prefix n _).trans (List.prefix_append _ _)

lemma message_wrote (f : WsEnd) (wec : Option Int) :
    message (f.wrote wec) = message f ∧ spoken (f.wrote wec) = spoken f ∧
      (f.wrote wec).first = f.first := by
  unfold WsEnd.wrote
  cases f.behind wec with
  | none => exact ⟨rfl, rfl, rfl⟩
  | some r => exact ⟨rfl, rfl, rfl⟩

lemma message_sent {f : WsEnd} (hwritten : f.written = []) (n : ℕ) :
    message (f.sent n) = message f ∧ spoken (f.sent n) = spoken f ++ f.unsent.take n ∧
      (f.sent n).first = f.first := by
  have hpart : message { f with said := f.said ++ f.unsent.take n, unsent := f.unsent.drop n } =
      message f := by
    rw [message, message, List.append_assoc, List.take_append_drop]
  unfold WsEnd.sent
  dsimp only
  split
  · obtain ⟨hmessage, hspoken, hfirst⟩ := message_wrote
      { f with said := f.said ++ f.unsent.take n, unsent := f.unsent.drop n } none
    refine ⟨hmessage.trans hpart, hspoken.trans ?_, hfirst⟩
    simp [spoken, hwritten]
  · exact ⟨hpart, by simp [spoken, hwritten], rfl⟩

lemma step_inv {a : WsAction} {request : Bytes} (h : Inv texts request s)
    (hstep : step texts s a = some s') : Inv texts request s' := by
  cases a with
  | send e n =>
      simp only [step] at hstep
      split at hstep
      · next hn =>
          obtain ⟨hphase, -⟩ := hn
          obtain ⟨hmessage, hspoken, hfirst⟩ :=
            message_sent ((h.heard e).silent (by rw [hphase]; decide)) n
          obtain rfl := Option.some.inj hstep
          refine h.keep (heard_update _ h.heard ((h.heard e).sent_part hphase) hspoken rfl
            ?_ ?_) rfl hfirst hmessage
          · exact Function.update_of_ne (other_ne e).symm _ _
          · exact Function.update_self ..
      · cases hstep
  | writeError e ec =>
      simp only [step] at hstep
      split at hstep
      · next hphase =>
          obtain ⟨hmessage, hspoken, hfirst⟩ := message_wrote (s.side e) (some ec)
          obtain rfl := Option.some.inj hstep
          exact h.keep (heard_update [] h.heard ((h.heard e).wrote hphase (by simp))
            (by rw [hspoken, List.append_nil]) rfl rfl (List.append_nil _).symm) rfl hfirst hmessage
      · cases hstep
  | deliver e n =>
      simp only [step] at hstep
      split at hstep
      · next hn =>
          obtain ⟨hpos, hle, hchunk⟩ := hn
          split at hstep
          · next hphase =>
              cases e with
              | client => exact h.shake_client hphase hpos hle hchunk hstep
              | server => exact h.shake_server hphase hpos hle hchunk hstep
          · next hphase =>
              obtain rfl := Option.some.inj hstep
              refine h.keep (heard_update [] h.heard ((h.heard e).deliver hphase)
                (by simp [spoken]) rfl ?_ ?_) rfl rfl rfl
              · exact Function.update_self ..
              · rw [List.append_nil]
                exact Function.update_of_ne (other_ne e) _ _
          · cases hstep
      · cases hstep
  | readError e ec =>
      simp only [step] at hstep
      split at hstep
      · next hphase =>
          obtain rfl := Option.some.inj hstep
          exact h.keep (heard_update [] h.heard ((h.heard e).fail hphase) (by simp [spoken]) rfl
            rfl (List.append_nil _).symm) rfl rfl rfl
      · cases hstep
  | write e bs =>
      simp only [step] at hstep
      split at hstep
      · next hphase =>
          obtain rfl := Option.some.inj hstep
          refine h.keep (heard_update bs h.heard ((h.heard e).write hphase bs)
            (by simp [spoken]) rfl ?_ ?_) rfl rfl rfl
          · exact Function.update_of_ne (other_ne e).symm _ _
          · exact Function.update_self ..
      · cases hstep

/-- A side has written all of its message before it writes anything else. -/
lemma Heard.spoken_part {f : WsEnd} {spoken' rest : Bytes} (h : Heard e f spoken' rest) :
    spoken f <+: message f ++ f.written := by
  by_cases hphase : f.phase = .returned .ok
  · rw [message, h.sent (.inr hphase), List.append_nil]
    exact List.prefix_refl _
  · rw [spoken, h.silent hphase, List.append_nil, List.append_nil]
    exact List.prefix_append _ _

/-- What a side makes of the message it is sent depends on how far its first piece reaches. -/
lemma Inv.verdict {request : Bytes} (h : Inv texts request s) (e : WsSide)
    (hk : headerEnd (message (s.side e.other)) (wsWanted e) = some k) :
    ((s.side e).phase = .returned .ok → k ≤ (s.side e).first.length) ∧
      ((s.side e).phase = .returned .badMessage → (s.side e).first.length < k) := by
  have hself := h.heard e
  have hspoken := headerEnd_append (wsWanted_ne_nil e) hk (s.side e.other).written
  obtain ⟨rest, hrest⟩ := hself.first_part.trans (h.heard e.other).spoken_part
  constructor
  · intro hphase
    obtain ⟨ec, hec⟩ | ⟨-, hfits⟩ := hself.returned _ hphase
    · cases hec
    · exact (isSome_iff_of_append e hrest hspoken).mp hfits
  · intro hphase
    obtain ⟨ec, hec⟩ | ⟨-, hfits⟩ := hself.returned _ hphase
    · cases hec
    · by_contra hle
      have hsome := (isSome_iff_of_append e hrest hspoken).mpr (Nat.le_of_not_lt hle)
      rw [show httpGetHeader (s.side e).first (wsWanted e) = none from hfits] at hsome
      cases hsome

/-- A side that has been opened or refuses has read something. -/
lemma Heard.first_ne_nil {f : WsEnd} {spoken rest : Bytes} (h : Heard e f spoken rest)
    (hphase : f.phase = .returned .ok ∨ f.phase = .returned .badMessage) : f.first ≠ [] := by
  obtain hphase | hphase := hphase
  · obtain ⟨ec, hec⟩ | ⟨hne, -⟩ := h.returned _ hphase
    · cases hec
    · exact hne
  · obtain ⟨ec, hec⟩ | ⟨hne, -⟩ := h.returned _ hphase
    · cases hec
    · exact hne

/-- The reads of a side that has been opened. -/
lemma Heard.reads {f : WsEnd} {said written rest : Bytes} (h : Heard e f (said ++ written) rest)
    (hphase : f.phase = .returned .ok) : ∃ pieces : List Bytes,
      f.io = ⟨f.first, f.first.length, pieces.map .ok⟩ ∧
        f.first ++ pieces.flatten ++ rest = said ++ written ∧
        (f.first = said ↔ pieces.flatten ++ rest = written) := by
  obtain ⟨pieces, hio, hspoken⟩ := h.read (h.first_ne_nil (.inl hphase))
  refine ⟨pieces, hio, hspoken, ?_⟩
  rw [List.append_assoc] at hspoken
  constructor
  · intro hfirst
    rw [hfirst] at hspoken
    exact List.append_cancel_left hspoken
  · intro hwritten
    rw [hwritten] at hspoken
    exact List.append_cancel_right hspoken

lemma wsResponse_ne_nil (key : Bytes) : wsResponse key ≠ [] := by
  simp [wsResponse, ascii]

/-- The client has heard from the server, so the server has said something. -/
lemma Inv.said_ne_nil {request : Bytes} (h : Inv texts request s)
    (hfirst : (s.side .client).first ≠ []) : (s.side .server).said ≠ [] := by
  intro hsaid
  have hprefix := (h.heard .client).first_part
  rw [WsSide.other, spoken, hsaid, List.nil_append] at hprefix
  by_cases hphase : (s.side .server).phase = .returned .ok
  · have hserver := h.heard .server
    have hmessage := (h.answered (hserver.first_ne_nil (.inl hphase))).1
    obtain ⟨ec, hec⟩ | ⟨-, hfits⟩ := hserver.returned _ hphase
    · cases hec
    · obtain ⟨key, hkey⟩ := Option.isSome_iff_exists.mp hfits
      rw [message, hsaid, hserver.sent (.inr hphase), wsReply] at hmessage
      rw [wsWanted] at hkey
      rw [hkey] at hmessage
      exact wsResponse_ne_nil _ hmessage.symm
  · rw [(h.heard .server).silent hphase, List.prefix_nil] at hprefix
    exact hfirst hprefix

/-- **Where the handshake ends.**  A client and a server shake hands over a transport that takes and
delivers the bytes in pieces of any size, and whose reads and writes may fail at any byte.  In every
state reached:

* a side that has been opened has said its whole message and has kept nothing back: its reads find
  what the other side has written, message and frames, from the end of its own first piece on, and
  so the frames alone exactly if that piece is what the other side has said;
* the first piece of the server is a part of the request; a server that has been opened has in it
  the end of the line of the key, one that refuses does not;
* a server that has found the key answers with the accept key made of the key in the request, as far
  as its write gets, and a client that has been opened has the end of the line of the accept key in
  its first piece, one that refuses does not;
* the key is found by every server that has been opened;
* a client that has been opened or refuses has heard from a server that has read something. -/
theorem handshake_takes_first_piece (texts : WsTexts) (host wsSecKey : Bytes) (as : List WsAction)
    (s : WsPair) (h : exec (step texts) (init host wsSecKey) as = some s) :
    (∀ e, (s.side e).phase = .returned .ok → (s.side e).unsent = [] ∧ ∃ pieces : List Bytes,
      (s.side e).io = ⟨(s.side e).first, (s.side e).first.length, pieces.map .ok⟩ ∧
        (s.side e).first ++ pieces.flatten ++ s.toward e =
          (s.side e.other).said ++ (s.side e.other).written ∧
        ((s.side e).first = (s.side e.other).said ↔
          pieces.flatten ++ s.toward e = (s.side e.other).written)) ∧
      ((s.side .client).said ++ (s.side .client).unsent = wsRequest host wsSecKey ∧
        (s.side .server).first <+: wsRequest host wsSecKey ∧
        ∃ k, headerEnd (wsRequest host wsSecKey) secWebSocketKey = some k ∧
          ((s.side .server).phase = .returned .ok → k ≤ (s.side .server).first.length) ∧
          ((s.side .server).phase = .returned .badMessage →
            (s.side .server).first ≠ [] ∧ (s.side .server).first.length < k)) ∧
      (∀ key, httpGetHeader (s.side .server).first secWebSocketKey = some key →
        httpGetHeader (wsRequest host wsSecKey) secWebSocketKey = some key ∧
          (s.side .server).said ++ (s.side .server).unsent = wsResponse (texts.acceptKey key) ∧
          ∃ k, headerEnd (wsResponse (texts.acceptKey key)) secWebSocketAccept = some k ∧
            ((s.side .client).phase = .returned .ok → k ≤ (s.side .client).first.length) ∧
            ((s.side .client).phase = .returned .badMessage →
              (s.side .client).first.length < k)) ∧
      ((s.side .server).phase = .returned .ok →
        (httpGetHeader (s.side .server).first secWebSocketKey).isSome = true) ∧
      ((s.side .client).phase = .returned .ok ∨ (s.side .client).phase = .returned .badMessage →
        (s.side .server).first ≠ [] ∧ (s.side .server).said ≠ []) := by
  have hinv := exec_invariant (fun _ _ _ hs hstep => step_inv hs hstep)
    (inv_init texts host wsSecKey) h
  have hserver := hinv.heard .server
  have hprefix : (s.side .server).first <+: wsRequest host wsSecKey := by
    by_cases hfirst : (s.side .server).first = []
    · rw [hfirst]
      exact List.nil_prefix
    · exact (hinv.answered hfirst).2
  refine ⟨fun e hphase => ⟨(hinv.heard e).sent (.inr hphase), (hinv.heard e).reads hphase⟩,
    ⟨hinv.asked, hprefix, ?_⟩, fun key hkey => ?_, fun hphase => ?_, fun hphase => ?_⟩
  · obtain ⟨k, hk⟩ := exists_headerEnd_request host wsSecKey
    have hmessage : headerEnd (message (s.side WsSide.server.other)) (wsWanted .server) =
        some k := by
      rw [WsSide.other, hinv.asked, hk]
    obtain ⟨hopened, hrefused⟩ := hinv.verdict .server hmessage
    exact ⟨k, hk, hopened, fun hphase => ⟨hserver.first_ne_nil (.inr hphase), hrefused hphase⟩⟩
  · have hne : (s.side .server).first ≠ [] := by
      intro hfirst
      rw [hfirst] at hkey
      cases hkey
    have hmessage := (hinv.answered hne).1
    rw [wsReply, hkey] at hmessage
    obtain ⟨rest, hrest⟩ := hprefix
    obtain ⟨k, hk⟩ := exists_headerEnd_response (texts.acceptKey key)
    refine ⟨?_, hmessage, k, hk, hinv.verdict .client ?_⟩
    · rw [← hrest]
      exact httpGetHeader_append (wsWanted_ne_nil .server) hkey rest
    · rw [WsSide.other, hmessage]
      exact hk
  · obtain ⟨ec, hec⟩ | ⟨-, hfits⟩ := hserver.returned _ hphase
    · cases hec
    · exact hfits
  · have hfirst := (hinv.heard .client).first_ne_nil hphase
    exact ⟨hinv.causal hfirst, hinv.said_ne_nil hfirst⟩

/-- Both messages come in two pieces, the first of which has the header: both sides are opened, the
client before the answer has been written, and their next reads find what is left. -/
def splitMessages : List WsAction :=
  [.send .client 110, .deliver .server 110, .send .client 43, .send .server 100,
    .deliver .client 100, .write .client [0x82, 0x80], .send .server 2, .write .server [0x82, 0],
    .deliver .server 20, .deliver .client 4]

theorem handshake_takes_first_piece_split :
    ∃ s, exec (step ⟨fun key => key, []⟩) (init [97] [98]) splitMessages = some s ∧
      ((s.side .server).phase = .returned .ok ∧ (s.side .client).phase = .returned .ok) ∧
      ((s.side .server).first.length = 110 ∧ (s.side .client).first.length = 100) ∧
      ∀ e, ∃ pieces : List Bytes, (s.side e).first ++ pieces.flatten ++ s.toward e =
        (s.side e.other).said ++ (s.side e.other).written := by
  have hrun : ((exec (step ⟨fun key => key, []⟩) (init [97] [98]) splitMessages).map fun s =>
      (((s.side .server).phase, (s.side .client).phase), (s.side .server).first.length,
        (s.side .client).first.length)) = some ((.returned .ok, .returned .ok), 110, 100) := by
    decide +kernel
  obtain ⟨s, hs, hfields⟩ := Option.map_eq_some_iff.mp hrun
  simp only [Prod.mk.injEq] at hfields
  obtain ⟨⟨hserver, hclient⟩, hlengths⟩ := hfields
  obtain ⟨hreads, -⟩ :=
    handshake_takes_first_piece ⟨fun key => key, []⟩ [97] [98] splitMessages s hs
  refine ⟨s, hs, ⟨hserver, hclient⟩, hlengths, fun e => ?_⟩
  have hphase : (s.side e).phase = .returned .ok := by
    cases e with
    | client => exact hclient
    | server => exact hserver
  obtain ⟨-, pieces, -, hpieces, -⟩ := hreads e hphase
  exact ⟨pieces, hpieces⟩

/-- A client is opened by a part of the answer beside a server that is not. -/
example : ((exec (step ⟨fun key => key, []⟩) (init [97] [98]) [.send .client 153,
    .deliver .server 153, .send .server 100, .deliver .client 100, .writeError .server 104]).map
      fun s => ((s.side .server).phase, (s.side .client).phase)) =
    some (.returned (.failed 104), .returned .ok) := by decide +kernel

end WsPair

end Snova
