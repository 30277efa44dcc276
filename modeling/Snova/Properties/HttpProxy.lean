import Snova.Framework.Occurrence
import Snova.Model.HttpProxy

/-!
# Segmented HTTP requests

`handle_http_connection` reads the rest of the head from the socket variable it has just moved the
connection out of, so it gives up unless the head is there already.  How a request is split into
segments matters exactly when its head is not complete in the first one and the request would have
been relayed.
-/

namespace Snova

/-! ## Searching -/

/-- What a search for a text finds. -/
def Found (needle view : Bytes) : Option ℕ → Prop
  | some pos => FirstAt needle view pos
  | none => ∀ pos, ¬ OccursAt needle view pos

lemma found_of_prefix {needle view : Bytes} (h : needle <+: view) :
    Found needle view (find needle view) := by
  have hfind : find needle view = some 0 := by
    cases view with
    | nil => rw [find, if_pos (List.isPrefixOf_iff_prefix.mpr h)]
    | cons b view => rw [find, if_pos (List.isPrefixOf_iff_prefix.mpr h)]
  rw [hfind]
  exact firstAt_zero_iff.mpr h

/-- One step of the search. -/
lemma Found.cons {needle view : Bytes} {b : UInt8} {result : Option ℕ}
    (h : Found needle view result) (hnot : ¬ needle <+: b :: view) :
    Found needle (b :: view) (result.map (· + 1)) := by
  have hzero : ¬ OccursAt needle (b :: view) 0 := hnot
  cases result with
  | none =>
      intro pos
      match pos with
      | 0 => exact hzero
      | pos + 1 =>
          rw [occursAt_cons_succ]
          exact h pos
  | some pos =>
      refine ⟨occursAt_cons_succ.mpr h.occurs, fun j hj => ?_⟩
      match j with
      | 0 => exact hzero
      | j + 1 =>
          rw [occursAt_cons_succ]
          exact h.first j (Nat.lt_of_succ_lt_succ hj)

lemma found_find (needle view : Bytes) : Found needle view (find needle view) := by
  induction view with
  | nil =>
      by_cases hprefix : needle <+: []
      · exact found_of_prefix hprefix
      · rw [find, if_neg (fun h => hprefix (List.isPrefixOf_iff_prefix.mp h))]
        intro pos hocc
        rw [OccursAt, List.drop_nil] at hocc
        exact hprefix hocc
  | cons b view ih =>
      by_cases hprefix : needle <+: b :: view
      · exact found_of_prefix hprefix
      · rw [find, if_neg (fun h => hprefix (List.isPrefixOf_iff_prefix.mp h))]
        exact ih.cons hprefix

/-- `find` finds the first occurrence. -/
lemma find_eq_some_iff {needle view : Bytes} {pos : ℕ} :
    find needle view = some pos ↔ FirstAt needle view pos := by
  have hfound := found_find needle view
  constructor
  · intro hfind
    rw [hfind] at hfound
    exact hfound
  · intro hfirst
    cases hfind : find needle view with
    | none =>
        rw [hfind] at hfound
        exact absurd hfirst.occurs (hfound pos)
    | some pos' =>
        rw [hfind] at hfound
        rw [FirstAt.unique hfound hfirst]

/-- What follows does not change what has been found. -/
lemma find_append {needle view : Bytes} (hneedle : needle ≠ []) {pos : ℕ}
    (h : find needle view = some pos) (rest : Bytes) : find needle (view ++ rest) = some pos :=
  find_eq_some_iff.mpr ((find_eq_some_iff.mp h).append hneedle rest)

/-! ## Routing -/

/-- The head of a request is one the handler rejects: it has no `Host` header that
`parse_http_hostport` finds, or the port there is no number, or there is no method. -/
def Unroutable (headers : Bytes) : Prop :=
  parseHttpHostport (stripAsciiWhitespace headers) = none ∨
  (∃ hostPort host port, parseHttpHostport (stripAsciiWhitespace headers) = some hostPort ∧
    hostPort.splitOn 58 = [host, port] ∧ stoi port = none) ∨
  find [32] (stripAsciiWhitespace headers) = none

lemma hostAndPort_eq_none_iff {hostPort : Bytes} :
    hostAndPort hostPort = none ↔
      ∃ host port, hostPort.splitOn 58 = [host, port] ∧ stoi port = none := by
  rw [hostAndPort]
  split
  · rename_i host port hsplit
    rw [Option.map_eq_none_iff, hsplit]
    constructor
    · exact fun hstoi => ⟨host, port, rfl, hstoi⟩
    · rintro ⟨host', port', heq, hstoi⟩
      simp only [List.cons.injEq, and_true] at heq
      rw [heq.2, hstoi]
  · rename_i hne
    constructor
    · intro h
      cases h
    · rintro ⟨host, port, hsplit, -⟩
      exact absurd hsplit (hne host port)

lemma httpRoute_eq_none_iff (headers : Bytes) : httpRoute headers = none ↔ Unroutable headers := by
  rw [httpRoute, Unroutable]
  generalize stripAsciiWhitespace headers = view
  cases hparse : parseHttpHostport view with
  | none => exact ⟨fun _ => Or.inl rfl, fun _ => rfl⟩
  | some hostPort =>
      cases hport : hostAndPort hostPort with
      | none =>
          obtain ⟨host, port, hsplit, hstoi⟩ := hostAndPort_eq_none_iff.mp hport
          simp only [Option.bind_eq_bind, Option.bind_some, hport, Option.bind_none, true_iff]
          exact Or.inr (Or.inl ⟨hostPort, host, port, rfl, hsplit, hstoi⟩)
      | some target =>
          have hnone : ¬ ∃ host port, hostPort.splitOn 58 = [host, port] ∧ stoi port = none := by
            rw [← hostAndPort_eq_none_iff, hport]
            exact Option.some_ne_none target
          cases hmethod : find [32] view with
          | none =>
              simp only [Option.bind_eq_bind, Option.bind_some, hport, Option.bind_none, true_iff]
              exact Or.inr (Or.inr trivial)
          | some pos =>
              simp only [Option.bind_eq_bind, Option.bind_some, hport, reduceCtorEq, false_iff]
              rintro (h | ⟨_, host, port, heq, hsplit, hstoi⟩ | h)
              · exact h
              · obtain rfl := Option.some.inj heq
                exact hnone ⟨host, port, hsplit, hstoi⟩
              · exact h

/-- A read from a variable that has been moved from fails. -/
lemma readUntil_movedFrom (delim first : Bytes) (later : List Bytes) :
    readUntil .movedFrom delim first later
      = (find delim first).map fun pos => (pos, first, later) := by
  cases later with
  | nil => rfl
  | cons segment later =>
      rw [readUntil]
      cases find delim first with
      | none => rfl
      | some pos => rfl

/-- The handler on a segmented request looks at the first segment only. -/
lemma handleHttpConnection_eq (s : TcpSocket) (first : Bytes) (later : List Bytes) :
    handleHttpConnection s first later
      = (find [13, 10, 13, 10] first).bind fun endPos =>
          (httpRoute (first.take endPos)).map fun route =>
            ⟨s, some (if route.isConnect then [] else first), later, route.ctx⟩ := by
  rw [handleHttpConnection, readUntil_movedFrom]
  cases find [13, 10, 13, 10] first with
  | none => rfl
  | some endPos =>
      simp only [Option.map_some, Option.bind_eq_bind, Option.bind_some]
      cases httpRoute (first.take endPos) with
      | none => rfl
      | some route => rfl

/-- A segmented request goes where it goes when it arrives in one piece, and a request that is
passed on is passed on with all its bytes. -/
def SameRoute (s : TcpSocket) (first : Bytes) (later : List Bytes) : Prop :=
  (handleHttpConnection s first later).map RelayCall.ctx
    = (handleHttpConnection s (first ++ later.flatten) []).map RelayCall.ctx ∧
  ∀ endPos route call, find [13, 10, 13, 10] (first ++ later.flatten) = some endPos →
    httpRoute ((first ++ later.flatten).take endPos) = some route → route.isConnect = false →
    handleHttpConnection s first later = some call →
    call.readedData.map (· ++ call.unread.flatten) = some (first ++ later.flatten)

/-- With the head in the first segment, the rest does not matter. -/
lemma sameRoute_of_first (s : TcpSocket) {first : Bytes} (later : List Bytes) {pos : ℕ}
    (hfirst : find [13, 10, 13, 10] first = some pos) : SameRoute s first later := by
  have hdelim : ([13, 10, 13, 10] : Bytes) ≠ [] := List.cons_ne_nil _ _
  have hwhole := find_append hdelim hfirst later.flatten
  have hpos : pos ≤ first.length := by
    have hlen := (find_eq_some_iff.mp hfirst).occurs.length_le hdelim
    omega
  have htake : (first ++ later.flatten).take pos = first.take pos :=
    List.take_append_of_le_length hpos
  rw [SameRoute, handleHttpConnection_eq, handleHttpConnection_eq, hfirst, hwhole, Option.bind_some,
    Option.bind_some, htake]
  constructor
  · rw [Option.map_map, Option.map_map]
    rfl
  · intro endPos route call hend hroute hconnect hcall
    obtain rfl := Option.some.inj hend
    rw [htake] at hroute
    rw [hroute, Option.map_some] at hcall
    obtain rfl := Option.some.inj hcall
    rw [hconnect]
    rfl

/-- **Segmentation.**  For a request with a complete head, the segments do not matter if and only
if the head is complete in the first of them or the request is rejected in any case. -/
theorem same_route_iff (s : TcpSocket) {first : Bytes} {later : List Bytes} {endPos : ℕ}
    (hhead : find [13, 10, 13, 10] (first ++ later.flatten) = some endPos) :
    SameRoute s first later ↔
      (find [13, 10, 13, 10] first).isSome ∨
        Unroutable ((first ++ later.flatten).take endPos) := by
  cases hfirst : find [13, 10, 13, 10] first with
  | some pos => exact ⟨fun _ => Or.inl rfl, fun _ => sameRoute_of_first s later hfirst⟩
  | none =>
      rw [← httpRoute_eq_none_iff, SameRoute, handleHttpConnection_eq, handleHttpConnection_eq,
        hfirst, hhead, Option.bind_none, Option.bind_some, Option.map_none]
      constructor
      · rintro ⟨hsame, -⟩
        right
        rw [eq_comm, Option.map_eq_none_iff, Option.map_eq_none_iff] at hsame
        exact hsame
      · rintro (hsome | hnone)
        · cases hsome
        · rw [hnone]
          exact ⟨rfl, fun _ _ _ _ _ _ hcall => by cases hcall⟩

/-- `GET / HTTP/1.1`, with a `Host` header in the middle. -/
def getRequest : Bytes := ascii "GET / HTTP/1.1\r\nHost: a:81\r\nAccept: *\r\n\r\n".toList

/-- The whole head in the first segment, and a body in the second. -/
theorem same_route_iff_body :
    ∃ endPos, find [13, 10, 13, 10] (getRequest ++ [[98]].flatten) = some endPos ∧
      SameRoute ⟨true⟩ getRequest [[98]] := by
  have hhead : find [13, 10, 13, 10] (getRequest ++ [[98]].flatten) = some 37 := by decide +kernel
  exact ⟨37, hhead, (same_route_iff ⟨true⟩ hhead).mpr (Or.inl (by decide +kernel))⟩

/-- The first segment ends behind the method: the request is rejected, and in one piece it is
relayed. -/
theorem split_head_rejected :
    ∃ first later endPos, first ++ later.flatten = getRequest ∧ 3 ≤ first.length ∧
      find [13, 10, 13, 10] (first ++ later.flatten) = some endPos ∧
      ¬ SameRoute ⟨true⟩ first later := by
  refine ⟨getRequest.take 3, [getRequest.drop 3], 37, by decide +kernel, by decide +kernel,
    by decide +kernel, fun h => ?_⟩
  have hrelayed := congrArg Option.isSome h.1
  revert hrelayed
  decide +kernel

end Snova
