/-
**A connection of the RTSP server.**

`handle_connection` in `crates/protocols/src/rtsp_server/server.rs` reads requests in a loop,
checks their authentication and answers them.  A `PLAY` of a live stream starts a second loop,
which sends the packets of the stream, a sender report every five seconds, and reads requests on
its own; when it ends, the connection ends.  The requests that the second loop reads are answered
without a check of their authentication.

The connection is a step machine.  Its events are what the two loops wait for: a request that has
been read, a packet of the stream, the timer.  What the outside decides is part of the event: the
live streams at the moment they are looked at, the session identifier that is generated, whether a
write succeeds, the clock.

Main definitions:

* `RtspServer.Conn`, `RtspServer.Phase`, `RtspServer.Delivery` — the state of a connection;
* `RtspServer.Event`, `RtspServer.step` — **what a connection does**;
* `RtspServer.Conn.cause` — the request that is being handled when an event occurs;
* `RtspServer.Authenticated` — a step answers, and changes the session, only for an authenticated
  request.

Main results:

* `RtspServer.gated_step` — the second loop is entered by an authenticated request;
* `RtspServer.authenticated_iff` — **every step is authenticated exactly when every request that
  the second loop reads is**.
-/

import MibeeEye.RtspSession
import MibeeEye.StepMachine

set_option relaxedAutoImplicit false
set_option autoImplicit false

namespace RtspServer

open Machine

/-! ### The state of a connection -/

/-- `RtspServerInner`, without the live streams. -/
structure RtspServerInner where
  config : RtspServerConfig
  streams : StreamMap

/-- The local variables of the second loop. -/
structure Delivery where
  /-- The `PLAY` request that is being handled. -/
  request : ParsedRequest
  interleaveChannel : UInt8
  rtcpChannel : UInt8
  ssrc : UInt32
  packetCount : UInt32 := 0
  octetCount : UInt32 := 0
  /-- In nanoseconds. -/
  lastActivity : ℕ
  deriving DecidableEq, Repr

/-- Which loop a connection is in. -/
inductive Phase
  | reading
  | delivering (d : Delivery)
  | closed
  deriving DecidableEq, Repr

/-- A connection. -/
structure Conn where
  nonce : String
  session : SessionState := .init
  phase : Phase := .reading
  deriving DecidableEq, Repr

/-- What the outside decides while a request is handled. -/
structure Env where
  /-- The live streams, when they are looked at first. -/
  live : LiveMap := []
  /-- The live streams, when `SETUP` looks at them again. -/
  liveAgain : LiveMap := []
  /-- What `generate_session_id` gives. -/
  sessionId : String
  /-- Whether the response can be written. -/
  writeOk : Bool := true
  /-- In nanoseconds. -/
  now : ℕ

/-- What the loops wait for. -/
inductive Event
  /-- `read_rtsp_request` gives a request. -/
  | request (req : ParsedRequest) (env : Env)
  /-- `read_rtsp_request` gives nothing: the client has closed its side. -/
  | endOfInput
  /-- `read_rtsp_request` fails. -/
  | readError
  /-- A packet of the live stream. -/
  | frame (data : List UInt8) (now : ℕ) (writeOk : Bool)
  /-- The receiver has fallen behind. -/
  | lagged (n : ℕ)
  /-- The live stream has ended. -/
  | streamEnded
  /-- Five seconds have passed without another event. -/
  | tick (now : ℕ) (ntp : UInt64) (writeOk : Bool)

/-- What is written to the client. -/
inductive Written
  | response (r : Response)
  | frame (bytes : List UInt8)
  deriving DecidableEq, Repr

/-! ### The first loop -/

/-- What the first loop does with a request it has accepted. -/
structure Outcome where
  response : Response
  session : SessionState
  next : Phase := .reading

/-- The stream that `DESCRIBE` describes. -/
def resolveDescribe (server : RtspServerInner) (uri : String) (live : LiveMap) :
    Option StreamConfig :=
  findStreamByUri uri server.streams <|>
    (findLiveStream uri live).map fun e => ⟨e.1, buildLiveSdp e.2, e.2.ssrc⟩

/-- The stream that `SETUP` sets up: by its uri, else the one that was described last. -/
def resolveSetup (server : RtspServerInner) (session : SessionState) (uri : String)
    (live liveAgain : LiveMap) : Option StreamConfig :=
  findStreamByUri uri server.streams <|>
    ((findLiveStream uri live).map fun e => ⟨e.1, e.2.sdpBody, e.2.ssrc⟩) <|>
    match session with
    | .described path => (liveAgain.lookup path).map fun entry => ⟨path, entry.sdpBody, entry.ssrc⟩
    | _ => none

/-- What follows a `PLAY`: the second loop, if the session is playing a live stream. -/
def startDelivery (req : ParsedRequest) (session : SessionState) (env : Env) : Phase :=
  match session with
  | .playing _ transport streamPath _ =>
      match env.live.lookup streamPath with
      | some entry =>
          .delivering {
            request := req
            interleaveChannel := (transport.interleaved.map Prod.fst).getD 0
            rtcpChannel := (transport.interleaved.map Prod.snd).getD 1
            ssrc := entry.ssrc
            lastActivity := env.now }
      | none => .reading
  | _ => .reading

/-- The `match` over the methods. -/
def handleRequest (server : RtspServerInner) (session : SessionState) (req : ParsedRequest)
    (env : Env) : Outcome :=
  match req.method with
  | .options => { response := handleOptions req.cseq, session }
  | .describe =>
      match resolveDescribe server req.uri env.live with
      | some stream =>
          let r := handleDescribe req.cseq req.uri stream
          { response := r.1, session := r.2 }
      | none => { response := notFoundResponse req.cseq, session }
  | .setup =>
      match getHeader req.headers "Transport" with
      | none => { response := unsupportedTransportResponse req.cseq, session }
      | some transport =>
          match resolveSetup server session req.uri env.live env.liveAgain with
          | none => { response := notFoundResponse req.cseq, session }
          | some stream =>
              let r := handleSetup req.cseq req.uri transport [(stream.path, stream)] session
                env.sessionId
              { response := r.1, session := r.2 }
  | .play =>
      let r := handlePlay req.cseq req.sessionId session
      { response := r.1, session := r.2, next := startDelivery req r.2 env }
  | .teardown =>
      let r := handleTeardown req.cseq req.sessionId
      { response := r.1, session := r.2, next := .closed }
  | .pause => { response := handlePause req.cseq req.sessionId session, session }
  | .getParameter => { response := handleGetParameter req.cseq, session }
  | .announce | .setParameter => { response := notSupportedResponse req.cseq, session }

/-- A request is read by the first loop. -/
def read (server : RtspServerInner) (c : Conn) (req : ParsedRequest) (env : Env) :
    Conn × List Written :=
  if checkAuth req server.config then
    let o := handleRequest server c.session req env
    ({ c with session := o.session, phase := if env.writeOk then o.next else .closed },
      [.response o.response])
  else
    ({ c with phase := if env.writeOk then .reading else .closed },
      [.response (unauthorizedResponse req.cseq server.config.realm c.nonce)])

/-! ### The second loop -/

/-- Sixty seconds. -/
def idleTimeout : ℕ := 60 * 10 ^ 9

/-- A request is read by the second loop.  Writing the response may fail; the loop does not look. -/
def readDelivering (c : Conn) (d : Delivery) (req : ParsedRequest) (env : Env) :
    Conn × List Written :=
  match req.method with
  | .teardown =>
      let r := handleTeardown req.cseq d.request.sessionId
      ({ c with session := r.2, phase := .closed }, [.response r.1])
  | .pause =>
      ({ c with phase := .closed },
        [.response (handlePause req.cseq d.request.sessionId c.session)])
  | _ =>
      ({ c with phase := .delivering { d with lastActivity := env.now } },
        [.response (handleOptions req.cseq)])

/-- A packet is sent on. -/
def deliverFrame (c : Conn) (d : Delivery) (data : List UInt8) (now : ℕ) (writeOk : Bool) :
    Conn × List Written :=
  let d := { d with
    lastActivity := now
    packetCount := d.packetCount + 1
    octetCount := d.octetCount + UInt32.ofNat (data.length - 12) }
  match buildInterleavedFrame d.interleaveChannel data with
  | .ok frame => ({ c with phase := if writeOk then .delivering d else .closed }, [.frame frame])
  | .error _ => ({ c with phase := .delivering d }, [])

/-- The timer: the session has been idle for too long, or a sender report is due. -/
def deliverTick (c : Conn) (d : Delivery) (now : ℕ) (ntp : UInt64) (writeOk : Bool) :
    Conn × List Written :=
  if idleTimeout < now - d.lastActivity then
    let r := handleTeardown 0 d.request.sessionId
    ({ c with session := r.2, phase := .closed }, [.response r.1])
  else
    let report := buildSenderReport d.ssrc ntp (ntpToRtp ntp 90000) d.packetCount d.octetCount
    match buildInterleavedFrame d.rtcpChannel report with
    | .ok frame => ({ c with phase := if writeOk then .delivering d else .closed }, [.frame frame])
    | .error _ => (c, [])

/-- One turn of the second loop. -/
def deliver (c : Conn) (d : Delivery) : Event → Conn × List Written
  | .request req env => readDelivering c d req env
  | .endOfInput | .readError | .streamEnded => ({ c with phase := .closed }, [])
  | .frame data now writeOk => deliverFrame c d data now writeOk
  | .lagged _ => (c, [])
  | .tick now ntp writeOk => deliverTick c d now ntp writeOk

/-! ### The connection -/

/-- **One step**: the connection after it, and what is written. -/
def step (server : RtspServerInner) (c : Conn) (e : Event) : Option (Conn × List Written) :=
  match c.phase, e with
  | .reading, .request req env => some (read server c req env)
  | .reading, .endOfInput | .reading, .readError => some ({ c with phase := .closed }, [])
  | .delivering d, e => some (deliver c d e)
  | _, _ => none

/-- The connection after a step. -/
def next (server : RtspServerInner) (c : Conn) (e : Event) : Option Conn :=
  (step server c e).map Prod.fst

/-- `handle_connection` starts with a nonce of its own. -/
def Conn.new (nonce : String) : Conn := { nonce }

/-! ### What a step does -/

/-- **The steps of a connection**: the first loop reads a request or ends, or the second loop
takes a turn. -/
theorem step_cases {server : RtspServerInner} {c c' : Conn} {e : Event} {out : List Written}
    (h : step server c e = some (c', out)) :
    (∃ req env, c.phase = .reading ∧ e = .request req env ∧ read server c req env = (c', out)) ∨
    (c.phase = .reading ∧ (e = .endOfInput ∨ e = .readError) ∧ c' = { c with phase := .closed } ∧
      out = []) ∨
    ∃ d, c.phase = .delivering d ∧ deliver c d e = (c', out) := by
  unfold step at h
  split at h
  · rename_i req env hphase
    exact Or.inl ⟨req, env, hphase, rfl, Option.some.inj h⟩
  · rename_i hphase
    cases h
    exact Or.inr (Or.inl ⟨hphase, Or.inl rfl, rfl, rfl⟩)
  · rename_i hphase
    cases h
    exact Or.inr (Or.inl ⟨hphase, Or.inr rfl, rfl, rfl⟩)
  · rename_i d hphase
    exact Or.inr (Or.inr ⟨d, hphase, Option.some.inj h⟩)
  · cases h

theorem step_delivering {server : RtspServerInner} {c : Conn} {d : Delivery}
    (h : c.phase = .delivering d) (e : Event) : step server c e = some (deliver c d e) := by
  simp only [step, h]

theorem step_reading {server : RtspServerInner} {c : Conn} (h : c.phase = .reading)
    (req : ParsedRequest) (env : Env) :
    step server c (.request req env) = some (read server c req env) := by
  simp only [step, h]

/-- The connection after a request that has been accepted. -/
theorem next_of_checkAuth {server : RtspServerInner} {c : Conn} {req : ParsedRequest}
    (h : c.phase = .reading) (hauth : checkAuth req server.config = true) (env : Env) :
    next server c (.request req env) = some { c with
      session := (handleRequest server c.session req env).session
      phase := if env.writeOk then (handleRequest server c.session req env).next else .closed } := by
  rw [next, step_reading h, read, if_pos hauth]
  rfl

/-- A request that has been accepted is not answered with a challenge. -/
theorem handleRequest_status (server : RtspServerInner) (session : SessionState)
    (req : ParsedRequest) (env : Env) :
    (handleRequest server session req env).response.status ≠ 401 := by
  unfold handleRequest
  split
  · simp [handleOptions]
  · split
    · simp [handleDescribe]
    · simp
  · split
    · simp
    · split
      · simp
      · exact handleSetup_status _ _ _ _ _ _
  · exact handlePlay_status _ _ _
  · simp [handleTeardown]
  · exact handlePause_status _ _ _
  · simp [handleGetParameter]
  · simp
  · simp

/-- Only the request itself starts the second loop. -/
theorem handleRequest_next {server : RtspServerInner} {session : SessionState} {req : ParsedRequest}
    {env : Env} {d : Delivery} (h : (handleRequest server session req env).next = .delivering d) :
    d.request = req := by
  unfold handleRequest at h
  split at h
  · cases h
  · split at h <;> cases h
  · split at h
    · cases h
    · split at h <;> cases h
  · -- `PLAY`
    simp only [startDelivery] at h
    split at h
    · split at h
      · cases h
        rfl
      · cases h
    · cases h
  · cases h
  · cases h
  · cases h
  · cases h
  · cases h

/-- The second loop answers every request it reads, and never with a challenge. -/
theorem readDelivering_response (c : Conn) (d : Delivery) (req : ParsedRequest) (env : Env) :
    ∃ r, (readDelivering c d req env).2 = [.response r] ∧ r.status ≠ 401 := by
  unfold readDelivering
  split
  · exact ⟨_, rfl, by simp [handleTeardown]⟩
  · exact ⟨_, rfl, handlePause_status _ _ _⟩
  · exact ⟨_, rfl, by simp [handleOptions]⟩

/-- The second loop keeps the request it is handling. -/
theorem deliver_phase {c : Conn} {d d' : Delivery} {e : Event} (hc : c.phase = .delivering d)
    (h : (deliver c d e).1.phase = .delivering d') : d'.request = d.request := by
  cases e with
  | request req env =>
      simp only [deliver, readDelivering] at h
      split at h
      · cases h
      · cases h
      · cases h
        rfl
  | endOfInput => cases h
  | readError => cases h
  | frame data now writeOk =>
      simp only [deliver, deliverFrame] at h
      split at h
      · cases writeOk <;> cases h
        rfl
      · cases h
        rfl
  | lagged n =>
      rw [deliver, hc] at h
      cases h
      rfl
  | streamEnded => cases h
  | tick now ntp writeOk =>
      simp only [deliver, deliverTick] at h
      split at h
      · cases h
      · split at h
        · cases writeOk <;> cases h
          rfl
        · rw [hc] at h
          cases h
          rfl

/-! ### Authentication -/

/-- The second loop is handling an authenticated request. -/
def Gated (server : RtspServerInner) (c : Conn) : Prop :=
  ∀ d, c.phase = .delivering d → checkAuth d.request server.config = true

/-- **The second loop is entered by an authenticated request**, and keeps it. -/
theorem gated_step {server : RtspServerInner} {c c' : Conn} {e : Event} {out : List Written}
    (hc : Gated server c) (h : step server c e = some (c', out)) : Gated server c' := by
  intro d hd
  rcases step_cases h with ⟨req, env, -, rfl, hread⟩ | ⟨-, -, rfl, -⟩ | ⟨d₀, hphase, hdeliver⟩
  · -- the first loop goes on to the second only after the check
    by_cases hauth : checkAuth req server.config = true
    · rw [read, if_pos hauth, Prod.mk.injEq] at hread
      obtain ⟨rfl, -⟩ := hread
      cases hok : env.writeOk with
      | true =>
          rw [hok, if_pos rfl] at hd
          rw [handleRequest_next hd]
          exact hauth
      | false =>
          rw [hok] at hd
          cases hd
    · rw [read, if_neg hauth, Prod.mk.injEq] at hread
      obtain ⟨rfl, -⟩ := hread
      cases hok : env.writeOk <;> rw [hok] at hd <;> cases hd
  · cases hd
  · rw [← (Prod.mk.inj hdeliver).1] at hd
    rw [deliver_phase hphase hd]
    exact hc d₀ hphase

/-- The request that is being handled when an event occurs: the one that has been read, or the one
that started the second loop. -/
def Conn.cause (c : Conn) (e : Event) : Option ParsedRequest :=
  match e, c.phase with
  | .request req _, _ => some req
  | _, .delivering d => some d.request
  | _, _ => none

/-- In the second loop there always is one. -/
theorem cause_delivering {c : Conn} {d : Delivery} (h : c.phase = .delivering d) (e : Event) :
    (∃ req env, e = .request req env ∧ c.cause e = some req) ∨ c.cause e = some d.request := by
  cases e with
  | request req env => exact Or.inl ⟨req, env, rfl, rfl⟩
  | endOfInput => simp [Conn.cause, h]
  | readError => simp [Conn.cause, h]
  | frame data now writeOk => simp [Conn.cause, h]
  | lagged n => simp [Conn.cause, h]
  | streamEnded => simp [Conn.cause, h]
  | tick now ntp writeOk => simp [Conn.cause, h]

/-- Only an authenticated request is answered with anything but a challenge, and changes the
session. -/
def Authenticated (server : RtspServerInner) (c : Conn) (e : Event) (c' : Conn)
    (out : List Written) : Prop :=
  ((∃ r, Written.response r ∈ out ∧ r.status ≠ 401) ∨ c'.session ≠ c.session) →
    ∃ req, c.cause e = some req ∧ checkAuth req server.config = true

/-- The first loop answers an unauthenticated request with a challenge, and nothing changes. -/
theorem authenticated_read (server : RtspServerInner) (c : Conn) (req : ParsedRequest) (env : Env) :
    Authenticated server c (.request req env) (read server c req env).1
      (read server c req env).2 := by
  intro heffect
  refine ⟨req, rfl, ?_⟩
  by_contra hauth
  rw [read, if_neg hauth] at heffect
  rcases heffect with ⟨r, hr, hstatus⟩ | hsession
  · rw [List.mem_singleton, Written.response.injEq] at hr
    rw [hr] at hstatus
    exact hstatus rfl
  · exact hsession rfl

/-- A step is authenticated, if a request that the second loop reads is. -/
theorem authenticated_step {server : RtspServerInner} {c c' : Conn} {e : Event} {out : List Written}
    (hc : Gated server c)
    (hread : ∀ d req env, c.phase = .delivering d → e = .request req env →
      checkAuth req server.config = true)
    (h : step server c e = some (c', out)) : Authenticated server c e c' out := by
  rcases step_cases h with ⟨req, env, -, rfl, hreading⟩ | ⟨-, -, rfl, rfl⟩ | ⟨d, hphase, -⟩
  · have := authenticated_read server c req env
    rwa [hreading] at this
  · rintro (⟨r, hr, -⟩ | hsession)
    · cases hr
    · exact absurd rfl hsession
  · intro _
    rcases cause_delivering hphase e with ⟨req, env, he, hcause⟩ | hcause
    · exact ⟨req, hcause, hread d req env hphase he⟩
    · exact ⟨d.request, hcause, hc d hphase⟩

/-- The second loop is handling an authenticated request whenever an event occurs. -/
theorem gated_occurs {server : RtspServerInner} {nonce : String} {es : List Event} {c : Conn}
    {e : Event} (h : Occurs (next server) (.new nonce) es c e) : Gated server c := by
  refine occurs_invariant (fun s a t hs ht => ?_) (fun d hd => by cases hd) h
  obtain ⟨⟨t', out⟩, hstep, rfl⟩ := Option.map_eq_some_iff.1 ht
  exact gated_step hs hstep

/-- **Every step of an execution is authenticated exactly when every request that the second loop
reads is.** -/
theorem authenticated_iff (server : RtspServerInner) (nonce : String) (es : List Event) :
    (∀ c e c' out, Occurs (next server) (.new nonce) es c e → step server c e = some (c', out) →
      Authenticated server c e c' out) ↔
    ∀ c d req env, Occurs (next server) (.new nonce) es c (.request req env) →
      c.phase = .delivering d → checkAuth req server.config = true := by
  constructor
  · intro hall c d req env hoccurs hphase
    obtain ⟨r, hr, hstatus⟩ := readDelivering_response c d req env
    have hstep : step server c (.request req env) =
        some ((readDelivering c d req env).1, [.response r]) := by
      rw [step_delivering hphase, ← hr]
      rfl
    obtain ⟨req', hcause, hauth⟩ :=
      hall c _ _ _ hoccurs hstep (Or.inl ⟨r, List.mem_singleton.2 rfl, hstatus⟩)
    cases hcause
    exact hauth
  · intro hread c e c' out hoccurs hstep
    refine authenticated_step (gated_occurs hoccurs) ?_ hstep
    rintro d req env hphase rfl
    exact hread c d req env hoccurs hphase

/-! ### A session that anyone can end -/

/-- A server that requires authentication. -/
def lockedServer : RtspServerInner where
  config := { authRequired := true, realm := "test", username := "admin", password := "secret" }
  streams := []

/-- A header with the nonce `6f1ed002ab5595859014ebf0951522d9` and a given response. -/
def digestHeader (response : String) : String × String :=
  ("Authorization", "Digest username=\"admin\", realm=\"test\", " ++
    "nonce=\"6f1ed002ab5595859014ebf0951522d9\", uri=\"/cam\", response=\"" ++ response ++ "\"")

/-- One live stream, `cam`. -/
def oneStream : Env where
  live := [("cam", { sdpBody := "", ssrc := 1 })]
  sessionId := "0123456789abcdef"
  now := 0

/-- `SETUP` of the stream, with the right credentials. -/
def setupCam : ParsedRequest where
  method := .setup
  uri := "/cam"
  headers := [digestHeader "2ca875ec34c8e25a88eaee8013a69a73", ("Transport", "RTP/AVP/TCP")]
  cseq := 1

/-- `PLAY` of the stream, with the right credentials. -/
def playCam : ParsedRequest where
  method := .play
  uri := "/cam"
  headers := [digestHeader "b3493401225443901c4e8a3647dd9336", ("Session", "0123456789abcdef")]
  cseq := 2

/-- `TEARDOWN` without credentials. -/
def teardownCam : ParsedRequest where
  method := .teardown
  uri := "/cam"
  headers := []
  cseq := 3

/-- The credentials of both are right. -/
theorem checkAuth_cam : checkAuth setupCam lockedServer.config = true ∧
    checkAuth playCam lockedServer.config = true := by
  decide +kernel

/-- The `TEARDOWN` is answered 200 and ends the session, although its authentication fails. -/
theorem not_authenticated_teardown :
    ¬ ∀ c e c' out,
      Occurs (next lockedServer) (.new "6f1ed002ab5595859014ebf0951522d9")
        [.request setupCam oneStream, .request playCam oneStream,
          .request teardownCam oneStream] c e →
      step lockedServer c e = some (c', out) → Authenticated lockedServer c e c' out := by
  intro hall
  have hplaying : (exec (next lockedServer) (.new "6f1ed002ab5595859014ebf0951522d9")
      [.request setupCam oneStream, .request playCam oneStream]).any
        (fun c => c.phase matches .delivering _) = true := by
    rw [exec_cons, next_of_checkAuth rfl checkAuth_cam.1, Option.bind_some, exec_cons,
      next_of_checkAuth rfl checkAuth_cam.2, Option.bind_some, exec_nil]
    decide
  obtain ⟨c, hexec, hphase⟩ := (Option.any_eq_true ..).1 hplaying
  cases hd : c.phase with
  | reading => simp [hd] at hphase
  | closed => simp [hd] at hphase
  | delivering d =>
      have hoccurs : Occurs (next lockedServer) (.new "6f1ed002ab5595859014ebf0951522d9")
          [.request setupCam oneStream, .request playCam oneStream,
            .request teardownCam oneStream] c (.request teardownCam oneStream) := ⟨_, List.prefix_refl _, hexec⟩
      obtain ⟨req, hcause, hauth⟩ := hall c _ _ _ hoccurs (step_delivering hd _)
        (Or.inl ⟨_, List.mem_singleton.2 rfl, by simp [handleTeardown]⟩)
      obtain rfl : teardownCam = req := Option.some.inj hcause
      cases hauth

end RtspServer
