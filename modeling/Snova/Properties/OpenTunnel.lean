import Snova.Model.OpenTunnel

/-!
# Tunnels and early traffic

`OpenTunnel` should wait for the response to its request, and leave whatever else arrives in the
meantime to the read loop: `intended` says so.  The code takes the next event as the response; if
it is another one, it reports the type of the event through the null pointer its cast gave
(`early_event_null_deref`), and the event is lost.

The two agree at every moment if and only if nothing but responses arrives while a call of
`OpenTunnel` waits (`tunnels_opened_iff`).
-/

namespace Snova

/-- What `OpenTunnel` is for: wait for a response and keep every other event. -/
def awaitResponse : List MuxEvent → List Incoming → Option (Bool × List MuxEvent × List Incoming)
  | _, [] => none
  | kept, .error _ :: rest => some (false, kept, rest)
  | kept, .event event :: rest =>
      match event.tunnelOpenResponse? with
      | some response => some (response.success, kept, rest)
      | none => awaitResponse (kept ++ [event]) rest

/-- What `NewConnection` is for: the events kept while the tunnels were opened are dispatched when
the read loop begins. -/
def intended : List (RemoteTunnelOption × Bool) → List MuxEvent → List Incoming → ConnOutcome
  | [], kept, incoming => readEventLoop (kept.map .event ++ incoming)
  | (opt, written) :: tunnels, kept, incoming =>
      if written then
        match awaitResponse kept incoming with
        | none => { phase := .opening, requests := [tunnelOpenRequest opt true] }
        | some (false, _, _) =>
            { phase := .failed, requests := [tunnelOpenRequest opt true], results := [false] }
        | some (true, kept, rest) => (intended tunnels kept rest).after opt
      else { phase := .failed, results := [false] }

/-- No null pointer is read, `OpenTunnel` returns what its response says, and the read loop
dispatches every other event. -/
structure OpensTunnels (logsErrors : Bool) (tunnels : List (RemoteTunnelOption × Bool))
    (incoming : List Incoming) : Prop where
  no_null : (newConnection logsErrors tunnels incoming).phase ≠ .nullDeref
  results : (newConnection logsErrors tunnels incoming).results =
    (intended tunnels [] incoming).results
  dispatched : (newConnection logsErrors tunnels incoming).dispatched =
    (intended tunnels [] incoming).dispatched

/-- Whatever arrives while a call of `OpenTunnel` waits is a response. -/
def Undisturbed : List (RemoteTunnelOption × Bool) → List Incoming → Prop
  | (_, true) :: tunnels, .event event :: rest =>
      ∃ response, event.tunnelOpenResponse? = some response ∧
        (response.success = true → Undisturbed tunnels rest)
  | _, _ => True

lemma Undisturbed.mono {tunnels : List (RemoteTunnelOption × Bool)} {pre incoming : List Incoming}
    (h : Undisturbed tunnels incoming) (hpre : pre <+: incoming) : Undisturbed tunnels pre := by
  induction tunnels generalizing pre incoming with
  | nil => trivial
  | cons tunnel tunnels ih =>
      obtain ⟨opt, written⟩ := tunnel
      cases written with
      | false => trivial
      | true =>
          cases pre with
          | nil => trivial
          | cons first pre =>
              obtain ⟨rest, rfl⟩ := hpre
              cases first with
              | error rc => trivial
              | event event =>
                  obtain ⟨response, hresponse, hnext⟩ := h
                  exact ⟨response, hresponse, fun hsuccess =>
                    ih (hnext hsuccess) (List.prefix_append _ _)⟩

/-- Undisturbed, the code does what is intended. -/
lemma newConnection_eq_intended (logsErrors : Bool)
    {tunnels : List (RemoteTunnelOption × Bool)} {incoming : List Incoming}
    (h : Undisturbed tunnels incoming) :
    newConnection logsErrors tunnels incoming = intended tunnels [] incoming := by
  induction tunnels generalizing incoming with
  | nil => rfl
  | cons tunnel tunnels ih =>
      obtain ⟨opt, written⟩ := tunnel
      cases written with
      | false => rfl
      | true =>
          cases incoming with
          | nil => rfl
          | cons first rest =>
              cases first with
              | error rc => rfl
              | event event =>
                  obtain ⟨response, hresponse, hnext⟩ := h
                  simp only [newConnection, openTunnel, intended, awaitResponse, hresponse, if_true]
                  cases hsuccess : response.success with
                  | false => rfl
                  | true =>
                      simp only
                      rw [ih (hnext hsuccess)]

lemma intended_no_null (tunnels : List (RemoteTunnelOption × Bool)) (kept : List MuxEvent)
    (incoming : List Incoming) : (intended tunnels kept incoming).phase ≠ .nullDeref := by
  have hloop : ∀ es : List Incoming, (readEventLoop es).phase ≠ .nullDeref := by
    intro es
    induction es with
    | nil => nofun
    | cons first es ih =>
        cases first with
        | event event => exact ih
        | error rc =>
            rw [readEventLoop]
            split
            · nofun
            · exact ih
  induction tunnels generalizing kept incoming with
  | nil => exact hloop _
  | cons tunnel tunnels ih =>
      obtain ⟨opt, written⟩ := tunnel
      rw [intended]
      split
      · split
        · nofun
        · nofun
        · exact ih _ _
      · nofun

/-- An event that is not a response, while a call of `OpenTunnel` waits for one. -/
lemma not_opensTunnels_of_other {logsErrors : Bool} {opt : RemoteTunnelOption}
    {tunnels : List (RemoteTunnelOption × Bool)} {event : MuxEvent}
    (hevent : event.tunnelOpenResponse? = none) :
    ¬ OpensTunnels logsErrors ((opt, true) :: tunnels) [.event event] := by
  intro h
  cases logsErrors with
  | true =>
      refine h.no_null ?_
      simp [newConnection, openTunnel, hevent]
  | false =>
      have hresults := h.results
      simp [newConnection, openTunnel, intended, awaitResponse, hevent] at hresults

/-- A tunnel that has been opened. -/
lemma OpensTunnels.rest {logsErrors : Bool} {opt : RemoteTunnelOption}
    {tunnels : List (RemoteTunnelOption × Bool)} {event : MuxEvent} {response : TunnelOpenResponse}
    {incoming : List Incoming} (hresponse : event.tunnelOpenResponse? = some response)
    (hsuccess : response.success = true)
    (h : OpensTunnels logsErrors ((opt, true) :: tunnels) (.event event :: incoming)) :
    OpensTunnels logsErrors tunnels incoming := by
  have hnew : newConnection logsErrors ((opt, true) :: tunnels) (.event event :: incoming) =
      (newConnection logsErrors tunnels incoming).after opt := by
    simp [newConnection, openTunnel, hresponse, hsuccess]
  have hint : intended ((opt, true) :: tunnels) [] (.event event :: incoming) =
      (intended tunnels [] incoming).after opt := by
    simp [intended, awaitResponse, hresponse, hsuccess]
  obtain ⟨hnull, hresults, hdispatched⟩ := h
  rw [hnew] at hnull
  rw [hnew, hint] at hresults hdispatched
  exact ⟨hnull, (List.cons.inj hresults).2, hdispatched⟩

/-- **Tunnels are opened as intended if and only if nothing disturbs it.**  For every list of
tunnels, every outcome of their requests and every sequence of arriving events: at every moment no
null pointer has been read, each `OpenTunnel` has returned what its response says and every other
event is dispatched by the read loop, if and only if nothing but responses arrives while a call of
`OpenTunnel` waits. -/
theorem tunnels_opened_iff (logsErrors : Bool) (tunnels : List (RemoteTunnelOption × Bool))
    (incoming : List Incoming) :
    (∀ pre, pre <+: incoming → OpensTunnels logsErrors tunnels pre) ↔
      Undisturbed tunnels incoming := by
  constructor
  · intro h
    induction tunnels generalizing incoming with
    | nil => trivial
    | cons tunnel tunnels ih =>
        obtain ⟨opt, written⟩ := tunnel
        cases written with
        | false => trivial
        | true =>
            cases incoming with
            | nil => trivial
            | cons first rest =>
                cases first with
                | error rc => trivial
                | event event =>
                    cases hresponse : event.tunnelOpenResponse? with
                    | none =>
                        exact absurd (h [.event event] ⟨rest, rfl⟩)
                          (not_opensTunnels_of_other hresponse)
                    | some response =>
                        refine ⟨response, hresponse, fun hsuccess => ih rest fun pre hpre => ?_⟩
                        exact (h (.event event :: pre)
                          (List.cons_prefix_cons.mpr ⟨rfl, hpre⟩)).rest hresponse hsuccess
  · intro h pre hpre
    have heq := newConnection_eq_intended logsErrors (h.mono hpre)
    refine ⟨?_, by rw [heq], by rw [heq]⟩
    rw [heq]
    exact intended_no_null tunnels [] pre

/-- A relay of the entry node opens a stream on the connection before the tunnel is answered. -/
theorem early_event_null_deref :
    (newConnection true [(⟨8080, [], 80⟩, true)]
        [.event (.ofBody (.proto .streamOpenRequest {}) 1),
          .event (.ofBody (.proto .tunnelOpenResponse { success := true, tunnelId := 1 }))]).phase
      = .nullDeref ∧
      ¬ ∀ pre, pre <+: [.event (.ofBody (.proto .streamOpenRequest {}) 1),
          .event (.ofBody (.proto .tunnelOpenResponse { success := true, tunnelId := 1 }))] →
        OpensTunnels true [(⟨8080, [], 80⟩, true)] pre := by
  refine ⟨rfl, ?_⟩
  intro h
  exact (h _ (List.prefix_refl _)).no_null rfl

end Snova
