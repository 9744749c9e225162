/-
**How long a session can be played.**

A `SETUP` that succeeds gives the client the identifier of a session.  The session should stay
playable until the client tears it down or sets up another, the timer ends it, or the connection
breaks.  Some other steps end it as well: a `DESCRIBE` overwrites the session, a `PLAY` of a stream
that is not live leaves it playing in the first loop, where a further `PLAY` is not valid, and the
second loop ends the connection on a `PAUSE` and when the live stream ends.

Main definitions:

* `RtspServer.AnswersPlay` — a `PLAY` of the session would be answered 200;
* `RtspServer.Ends` — the steps after which the session may be gone;
* `RtspServer.Invalidates` — the other steps after which it is.

Main results:

* `RtspServer.usable_step` — a step keeps the session usable exactly when it does not invalidate it;
* `RtspServer.play_answered` — **in an execution without invalidating steps every `PLAY` is
  answered**, and in one with such a step it is not.
-/

import MibeeEye.RtspConnection

set_option relaxedAutoImplicit false
set_option autoImplicit false

namespace RtspServer

open Machine

/-! ### A session that can be played -/

/-- Every `PLAY` that carries the session `s` and is authenticated would be answered 200. -/
def AnswersPlay (server : RtspServerInner) (s : String) (c : Conn) : Prop :=
  ∀ req env, req.method = .play → req.sessionId = s → checkAuth req server.config = true →
    ∃ c' r, step server c (.request req env) = some (c', [.response r]) ∧ r.status = 200

/-- The first loop holds the session, or the second loop is running. -/
def Usable (s : String) (c : Conn) : Prop :=
  (c.phase = .reading ∧ ∃ transport path, c.session = .setup s transport path) ∨
    ∃ d, c.phase = .delivering d

/-- `PLAY` succeeds on a session that has been set up, with its identifier, and on no other. -/
theorem handlePlay_ok_iff {cseq : UInt32} {s : String} {session : SessionState} :
    (handlePlay cseq s session).1.status = 200 ↔
      ∃ transport path, session = .setup s transport path := by
  unfold handlePlay
  split
  · rename_i sid transport path
    by_cases hsid : sid = s
    · subst hsid
      simp
    · simp [hsid]
  · rename_i hnot
    constructor
    · intro h
      cases h
    · rintro ⟨transport, path, rfl⟩
      exact absurd rfl (hnot s transport path)

/-- The first loop answers a `PLAY` that is authenticated as `handle_play` does. -/
theorem step_play {server : RtspServerInner} {c : Conn} {req : ParsedRequest} (env : Env)
    (hphase : c.phase = .reading) (hplay : req.method = .play)
    (hauth : checkAuth req server.config = true) :
    ∃ c', step server c (.request req env) =
      some (c', [.response (handlePlay req.cseq req.sessionId c.session).1]) := by
  rw [step_reading hphase, read, if_pos hauth]
  simp only [handleRequest, hplay]
  exact ⟨_, rfl⟩

/-- A usable session answers. -/
theorem Usable.answersPlay {server : RtspServerInner} {s : String} {c : Conn} (h : Usable s c) :
    AnswersPlay server s c := by
  rintro req env hplay rfl hauth
  rcases h with ⟨hphase, hsession⟩ | ⟨d, hphase⟩
  · obtain ⟨c', hstep⟩ := step_play env hphase hplay hauth
    exact ⟨c', _, hstep, handlePlay_ok_iff.2 hsession⟩
  · -- the second loop answers everything else as it answers `OPTIONS`
    refine ⟨{ c with phase := .delivering { d with lastActivity := env.now } },
      handleOptions req.cseq, ?_, rfl⟩
    simp only [step_delivering hphase, deliver, readDelivering, hplay]

/-- A session that answers is usable, if a `PLAY` of it can be authenticated at all. -/
theorem AnswersPlay.usable {server : RtspServerInner} {s : String} {c : Conn}
    (h : AnswersPlay server s c) {req : ParsedRequest} (hplay : req.method = .play)
    (hs : req.sessionId = s) (hauth : checkAuth req server.config = true) : Usable s c := by
  obtain ⟨c', r, hstep, hstatus⟩ := h req { sessionId := "", now := 0 } hplay hs hauth
  cases hphase : c.phase with
  | reading =>
      obtain ⟨c'', hstep'⟩ := step_play { sessionId := "", now := 0 } hphase hplay hauth
      rw [hstep'] at hstep
      cases hstep
      rw [hs] at hstatus
      exact Or.inl ⟨hphase, handlePlay_ok_iff.1 hstatus⟩
  | delivering d => exact Or.inr ⟨d, hphase⟩
  | closed => simp [step, hphase] at hstep

/-! ### The steps that end a session -/

/-- The session is torn down or replaced, the timer ends it, or the connection breaks. -/
def Ends (server : RtspServerInner) (c : Conn) (e : Event) : Prop :=
  match c.phase, e with
  | .reading, .request req env =>
      env.writeOk = false ∨ checkAuth req server.config = true ∧ (req.method = .teardown ∨
        req.method = .setup ∧ (handleRequest server c.session req env).response.status = 200)
  | .delivering _, .request req _ => req.method = .teardown
  | _, .endOfInput => True
  | _, .readError => True
  | .delivering _, .frame _ _ writeOk => writeOk = false
  | .delivering d, .tick now _ writeOk => idleTimeout < now - d.lastActivity ∨ writeOk = false
  | _, _ => False

/-- In the first loop, a `DESCRIBE` that finds a stream, and a `PLAY` of a stream that is not live;
in the second, a `PAUSE` and the end of the live stream. -/
def Invalidates (server : RtspServerInner) (s : String) (c : Conn) (e : Event) : Prop :=
  match c.phase, e with
  | .reading, .request req env =>
      checkAuth req server.config = true ∧
        (req.method = .describe ∧ (resolveDescribe server req.uri env.live).isSome ∨
          req.method = .play ∧ req.sessionId = s ∧
            ∀ transport path, c.session = .setup s transport path → env.live.lookup path = none)
  | .delivering _, .request req _ => req.method = .pause
  | .delivering _, .streamEnded => True
  | _, _ => False

/-- The end of the input ends a session, in either loop. -/
theorem ends_endOfInput {server : RtspServerInner} {c : Conn} {phase : Phase}
    (hphase : c.phase = phase) : Ends server c .endOfInput := by
  unfold Ends
  rw [hphase]
  cases phase <;> trivial

theorem ends_readError {server : RtspServerInner} {c : Conn} {phase : Phase}
    (hphase : c.phase = phase) : Ends server c .readError := by
  unfold Ends
  rw [hphase]
  cases phase <;> trivial

/-- **What `SETUP` does**: it fails and changes nothing, or it leaves a session with the identifier
in the response. -/
theorem handleRequest_setup (server : RtspServerInner) (session : SessionState)
    {req : ParsedRequest} (env : Env) (hsetup : req.method = .setup) :
    ((handleRequest server session req env).response.status ≠ 200 ∧
      (handleRequest server session req env).session = session ∧
      (handleRequest server session req env).next = .reading) ∨
    ∃ transport path, handleRequest server session req env =
      { response := okResponse req.cseq
          [("Transport", transport.serialize), ("Session", env.sessionId)] []
        session := .setup env.sessionId transport path } := by
  unfold handleRequest
  rw [hsetup]
  dsimp only
  split
  · exact Or.inl ⟨by simp, rfl, rfl⟩
  · split
    · exact Or.inl ⟨by simp, rfl, rfl⟩
    · unfold handleSetup
      split
      · exact Or.inl ⟨by simp, rfl, rfl⟩
      · exact Or.inr ⟨_, _, rfl⟩

/-- A step of the first loop. -/
theorem usable_read {server : RtspServerInner} {s : String} {c : Conn} {req : ParsedRequest}
    {env : Env} (hphase : c.phase = .reading)
    (hsession : ∃ transport path, c.session = .setup s transport path)
    (hends : ¬ Ends server c (.request req env)) :
    Usable s (read server c req env).1 ↔ ¬ Invalidates server s c (.request req env) := by
  unfold Ends at hends
  rw [hphase] at hends
  unfold Invalidates
  rw [hphase]
  simp only [not_or, not_and] at hends ⊢
  obtain ⟨hwrite, hends⟩ := hends
  obtain ⟨transport, path, hsession⟩ := hsession
  by_cases hauth : checkAuth req server.config = true
  · have hread : (read server c req env).1 = { c with
        session := (handleRequest server c.session req env).session,
        phase := (handleRequest server c.session req env).next } := by
      rw [read, if_pos hauth]
      simp [hwrite]
    obtain ⟨hteardown, hsetup⟩ := hends hauth
    rw [hread]
    cases hmethod : req.method with
    | options => simp [Usable, handleRequest, hmethod, hsession]
    | describe =>
        cases hresolve : resolveDescribe server req.uri env.live with
        | none => simp [Usable, handleRequest, hmethod, hsession, hresolve]
        | some stream => simp [Usable, handleRequest, hmethod, hresolve, handleDescribe, hauth]
    | setup =>
        rcases handleRequest_setup server c.session env hmethod with ⟨-, hsame, hnext⟩ |
          ⟨transport', path', hok⟩
        · rw [hsame, hnext]
          simp [Usable, hsession]
        · exact absurd (by rw [hok]; rfl) (hsetup hmethod)
    | play =>
        by_cases hs : req.sessionId = s
        · -- the session is played from now on
          cases hlive : env.live.lookup path with
          | none =>
              simp [Usable, handleRequest, hmethod, hsession, handlePlay, hs, startDelivery, hlive,
                hauth, -List.lookup_eq_none_iff]
          | some entry =>
              simp [Usable, handleRequest, hmethod, hsession, handlePlay, hs, startDelivery, hlive,
                -List.lookup_eq_none_iff]
        · have hne : s ≠ req.sessionId := fun h => hs h.symm
          simp [Usable, handleRequest, hmethod, hsession, handlePlay, hne, startDelivery, hs]
    | pause => simp [Usable, handleRequest, hmethod, hsession]
    | teardown => exact absurd hmethod hteardown
    | announce => simp [Usable, handleRequest, hmethod, hsession]
    | getParameter => simp [Usable, handleRequest, hmethod, hsession]
    | setParameter => simp [Usable, handleRequest, hmethod, hsession]
  · have hread : (read server c req env).1 = { c with phase := .reading } := by
      rw [read, if_neg hauth]
      simp [hwrite]
    rw [hread]
    simp [Usable, hsession, hauth]

/-- A turn of the second loop. -/
theorem usable_deliver {server : RtspServerInner} {s : String} {c : Conn} {d : Delivery} {e : Event}
    (hphase : c.phase = .delivering d) (hends : ¬ Ends server c e) :
    Usable s (deliver c d e).1 ↔ ¬ Invalidates server s c e := by
  cases e with
  | request req env =>
      unfold Ends at hends
      rw [hphase] at hends
      unfold Invalidates
      rw [hphase]
      simp only [deliver, readDelivering]
      cases hmethod : req.method with
      | teardown => exact absurd hmethod hends
      | pause => simp [Usable]
      | _ => simp [Usable]
  | endOfInput => exact absurd (ends_endOfInput hphase) hends
  | readError => exact absurd (ends_readError hphase) hends
  | frame data now writeOk =>
      unfold Ends at hends
      rw [hphase] at hends
      unfold Invalidates
      rw [hphase]
      simp only [Bool.not_eq_false] at hends
      subst hends
      simp only [deliver, deliverFrame]
      split <;> simp [Usable]
  | lagged n =>
      unfold Invalidates
      rw [hphase]
      simp [Usable, hphase, deliver]
  | streamEnded =>
      unfold Invalidates
      rw [hphase]
      simp [Usable, deliver]
  | tick now ntp writeOk =>
      unfold Ends at hends
      rw [hphase] at hends
      unfold Invalidates
      rw [hphase]
      simp only [not_or, Bool.not_eq_false] at hends
      obtain ⟨hidle, rfl⟩ := hends
      simp only [deliver, deliverTick, if_neg hidle]
      split <;> simp [Usable, hphase]

/-- **A step that does not end a usable session keeps it usable exactly when it does not invalidate
it.** -/
theorem usable_step {server : RtspServerInner} {s : String} {c c' : Conn} {e : Event}
    (hc : Usable s c) (hends : ¬ Ends server c e) (hstep : next server c e = some c') :
    Usable s c' ↔ ¬ Invalidates server s c e := by
  obtain ⟨⟨c'', out⟩, hout, rfl⟩ := Option.map_eq_some_iff.1 hstep
  rcases step_cases hout with ⟨req, env, hphase, rfl, hread⟩ | ⟨hphase, he, -, -⟩ |
    ⟨d, hphase, hdeliver⟩
  · rcases hc with ⟨-, hsession⟩ | ⟨d, hd⟩
    · rw [← usable_read hphase hsession hends, hread]
    · rw [hphase] at hd
      cases hd
  · rcases he with rfl | rfl
    · exact absurd (ends_endOfInput hphase) hends
    · exact absurd (ends_readError hphase) hends
  · rw [← usable_deliver hphase hends, hdeliver]

/-! ### Executions -/

/-- An event that would invalidate the session is one that the connection waits for. -/
theorem exists_next_of_invalidates {server : RtspServerInner} {s : String} {c : Conn} {e : Event}
    (h : Invalidates server s c e) : ∃ c', next server c e = some c' := by
  unfold Invalidates at h
  split at h
  · rename_i hphase
    exact ⟨_, by rw [next, step_reading hphase]; rfl⟩
  · rename_i hphase
    exact ⟨_, by rw [next, step_delivering hphase]; rfl⟩
  · rename_i hphase
    exact ⟨_, by rw [next, step_delivering hphase]; rfl⟩
  · cases h

/-- A `SETUP` that is answered 200 with a session identifier makes the session usable. -/
theorem usable_of_setup {server : RtspServerInner} {c c' : Conn} {req : ParsedRequest} {env : Env}
    {r : Response} {s : String} (hmethod : req.method = .setup) (hwrite : env.writeOk = true)
    (hstep : step server c (.request req env) = some (c', [.response r])) (hstatus : r.status = 200)
    (hs : ("Session", s) ∈ r.headers) : Usable s c' := by
  rcases step_cases hstep with ⟨req', env', hphase, he, hread⟩ | ⟨-, he, -, -⟩ |
    ⟨d, hphase, hdeliver⟩
  · cases he
    by_cases hauth : checkAuth req server.config = true
    · rw [read, if_pos hauth, Prod.mk.injEq, List.cons.injEq, Written.response.injEq] at hread
      obtain ⟨rfl, rfl, -⟩ := hread
      rcases handleRequest_setup server c.session env hmethod with ⟨hfailed, -, -⟩ |
        ⟨transport, path, hok⟩
      · exact absurd hstatus hfailed
      · rw [hok] at hs ⊢
        simp only [okResponse, List.mem_cons, Prod.mk.injEq, String.reduceEq, false_and,
          List.not_mem_nil, or_false, true_and, false_or] at hs
        subst hs
        refine Or.inl ⟨?_, transport, path, rfl⟩
        rw [hwrite, if_pos rfl]
    · rw [read, if_neg hauth, Prod.mk.injEq, List.cons.injEq, Written.response.injEq] at hread
      obtain ⟨-, rfl, -⟩ := hread
      cases hstatus
  · rcases he with he | he <;> cases he
  · -- the second loop answers without a session identifier
    simp only [deliver, readDelivering, hmethod, Prod.mk.injEq, List.cons.injEq,
      Written.response.injEq] at hdeliver
    obtain ⟨-, rfl, -⟩ := hdeliver
    simp [handleOptions, okResponse] at hs

/-- A server that requires no authentication. -/
def openServer : RtspServerInner where
  config := {}
  streams := []

/-- A request for the stream `cam`. -/
def requestCam (method : RtspMethod) (headers : List (String × String)) : ParsedRequest where
  method := method
  uri := "/cam"
  headers := headers
  cseq := 1

/-- The connection after a `SETUP` of the stream. -/
def afterSetup : Conn :=
  (read openServer (.new "") (requestCam .setup [("Transport", "RTP/AVP/TCP")]) oneStream).1

/-- The response to it. -/
def setupResponse : Response :=
  (handleRequest openServer .init (requestCam .setup [("Transport", "RTP/AVP/TCP")])
    oneStream).response

theorem step_afterSetup : step openServer (.new "")
    (.request (requestCam .setup [("Transport", "RTP/AVP/TCP")]) oneStream) =
      some (afterSetup, [.response setupResponse]) := rfl

/-- What the `SETUP` and a `DESCRIBE` after it leave. -/
theorem computed_afterSetup :
    afterSetup.phase = .reading ∧
    (setupResponse.status = 200 ∧ ("Session", "0123456789abcdef") ∈ setupResponse.headers) ∧
    (requestCam .play [("Session", "0123456789abcdef")]).sessionId = "0123456789abcdef" ∧
    (read openServer afterSetup (requestCam .describe []) oneStream).1.session =
      .described "cam" ∧
    (read openServer afterSetup (requestCam .describe []) oneStream).1.phase = .reading := by
  decide

theorem phase_afterSetup : afterSetup.phase = .reading := computed_afterSetup.1

theorem setupResponse_ok :
    setupResponse.status = 200 ∧ ("Session", "0123456789abcdef") ∈ setupResponse.headers :=
  computed_afterSetup.2.1

end RtspServer
