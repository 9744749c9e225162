/-
**The nonce of a connection.**

`handle_connection` generates a nonce and puts it in the challenges it sends.  `check_auth` does
not know it: the response in an `Authorization` header is verified against the nonce in the same
header, whatever that is.  So the nonce of a connection shows in its challenges and nowhere else,
and a header that one connection accepts is accepted by every other.

Main definitions:

* `RtspServer.Authorized` — the header of a request carries a response that is accepted;
* `RtspServer.Conn.withNonce` — a connection with another nonce.

Main results:

* `RtspServer.next_withNonce` — the nonce changes nothing in the course of a connection;
* `RtspServer.verdict_any_nonce` — **two connections that differ in their nonce give the same
  answers, but for the nonce in their challenges**.
-/

import MibeeEye.RtspConnection

set_option relaxedAutoImplicit false
set_option autoImplicit false

namespace RtspServer

open Machine

/-! ### The verdict -/

/-- The request has an `Authorization` header, and `verify_digest_auth` accepts it. -/
def Authorized (config : RtspServerConfig) (req : ParsedRequest) : Prop :=
  ∃ header, getHeader req.headers "Authorization" = some header ∧
    verifyDigestAuth header req.method.name req.uri config.username config.password config.realm =
      true

theorem checkAuth_iff {config : RtspServerConfig} (h : config.authRequired = true)
    (req : ParsedRequest) : checkAuth req config = true ↔ Authorized config req := by
  rw [checkAuth, if_pos h, Authorized]
  cases getHeader req.headers "Authorization" <;> simp

/-! ### Another nonce -/

/-- The same connection with another nonce. -/
def Conn.withNonce (c : Conn) (nonce : String) : Conn := { c with nonce }

/-- An accepted request is handled alike. -/
theorem read_withNonce_of_auth {server : RtspServerInner} {req : ParsedRequest}
    (h : checkAuth req server.config = true) (c : Conn) (env : Env) (n : String) :
    read server (c.withNonce n) req env =
      ((read server c req env).1.withNonce n, (read server c req env).2) := by
  simp only [read, h, if_true]
  rfl

/-- A request that is not accepted is answered with the nonce of the connection. -/
theorem read_of_not_auth {server : RtspServerInner} {req : ParsedRequest}
    (h : ¬ checkAuth req server.config = true) (c : Conn) (env : Env) :
    read server c req env =
      ({ c with phase := if env.writeOk then .reading else .closed },
        [.response (unauthorizedResponse req.cseq server.config.realm c.nonce)]) := by
  rw [read, if_neg h]

theorem deliver_withNonce (c : Conn) (d : Delivery) (e : Event) (n : String) :
    deliver (c.withNonce n) d e = ((deliver c d e).1.withNonce n, (deliver c d e).2) := by
  cases e with
  | request req env =>
      simp only [deliver, readDelivering]
      split <;> rfl
  | endOfInput => rfl
  | readError => rfl
  | frame data now writeOk =>
      simp only [deliver, deliverFrame]
      split <;> rfl
  | lagged n => rfl
  | streamEnded => rfl
  | tick now ntp writeOk =>
      simp only [deliver, deliverTick]
      split
      · rfl
      · split <;> rfl

/-- **The nonce changes nothing in the course of a connection.** -/
theorem next_withNonce (server : RtspServerInner) (n : String) (c : Conn) (e : Event) :
    next server (c.withNonce n) e = (next server c e).map fun c => c.withNonce n := by
  cases hphase : c.phase with
  | reading =>
      cases e with
      | request req env =>
          rw [next, next, step_reading hphase, step_reading (c := c.withNonce n) hphase]
          by_cases hauth : checkAuth req server.config = true
          · rw [read_withNonce_of_auth hauth]
            rfl
          · rw [read_of_not_auth hauth, read_of_not_auth hauth]
            rfl
      | endOfInput => simp [next, step, Conn.withNonce, hphase]
      | readError => simp [next, step, Conn.withNonce, hphase]
      | frame data now writeOk => simp [next, step, Conn.withNonce, hphase]
      | lagged n => simp [next, step, Conn.withNonce, hphase]
      | streamEnded => simp [next, step, Conn.withNonce, hphase]
      | tick now ntp writeOk => simp [next, step, Conn.withNonce, hphase]
  | delivering d =>
      rw [next, next, step_delivering hphase, step_delivering (c := c.withNonce n) hphase,
        deliver_withNonce]
      rfl
  | closed => simp [next, step, Conn.withNonce, hphase]

/-! ### Two connections -/

/-- **Two connections that differ in their nonce go through the same states, and give the same
answers but for the nonce in their challenges.**  An authorized request is accepted by both,
whatever nonce its header names; any other is answered by each with a challenge of its own. -/
theorem verdict_any_nonce {server : RtspServerInner} (hauth : server.config.authRequired = true)
    {n : String} {es : List Event} {c : Conn} (h : exec (next server) (.new n) es = some c)
    (hphase : c.phase = .reading) (n' : String) (req : ParsedRequest) (env : Env) :
    exec (next server) (.new n') es = some (c.withNonce n') ∧
    (Authorized server.config req → ∃ c' r, r.status ≠ 401 ∧
      step server c (.request req env) = some (c', [.response r]) ∧
      step server (c.withNonce n') (.request req env) = some (c'.withNonce n', [.response r])) ∧
    (¬ Authorized server.config req → ∃ c',
      step server c (.request req env) =
        some (c', [.response (unauthorizedResponse req.cseq server.config.realm n)]) ∧
      step server (c.withNonce n') (.request req env) =
        some (c'.withNonce n',
          [.response (unauthorizedResponse req.cseq server.config.realm n')])) := by
  have hother : ∀ m, exec (next server) (.new m) es = some (c.withNonce m) := by
    intro m
    have := exec_map (next_withNonce server m) (.new n) es
    rwa [h] at this
  have hnonce : c.nonce = n := by
    have := (hother n).symm.trans h
    rw [← Option.some.inj this]
    rfl
  refine ⟨hother n', ?_, ?_⟩
  · intro hreq
    have hcheck := (checkAuth_iff hauth req).2 hreq
    refine ⟨(read server c req env).1, (handleRequest server c.session req env).response,
      handleRequest_status _ _ _ _, ?_, ?_⟩
    · rw [step_reading hphase, read, if_pos hcheck]
    · rw [step_reading (c := c.withNonce n') hphase, read_withNonce_of_auth hcheck, read,
        if_pos hcheck]
  · intro hreq
    have hcheck : ¬ checkAuth req server.config = true := mt (checkAuth_iff hauth req).1 hreq
    refine ⟨{ c with phase := if env.writeOk then .reading else .closed }, ?_, ?_⟩
    · rw [step_reading hphase, read_of_not_auth hcheck, hnonce]
    · rw [step_reading (c := c.withNonce n') hphase, read_of_not_auth hcheck]
      rfl

/-! ### A captured header -/

/-- `OPTIONS`, with the header that answers a challenge with the nonce
`6f1ed002ab5595859014ebf0951522d9`. -/
def optionsCam : ParsedRequest where
  method := .options
  uri := "/cam"
  headers := [digestHeader "8ca2fd2e0df23b9f9c6456d358b85e49"]
  cseq := 1

/-- The nonce in the `Authorization` header of a request. -/
def ParsedRequest.nonce (req : ParsedRequest) : Option String := do
  let header ← getHeader req.headers "Authorization"
  let digest ← digestParams header
  let params ← (parseAuthParams digest).toOption
  params.lookup "nonce"

/-- The header is right, and it is made for the one nonce. -/
theorem computed_optionsCam : checkAuth optionsCam lockedServer.config = true ∧
    optionsCam.nonce = some "6f1ed002ab5595859014ebf0951522d9" := by
  decide +kernel

/-- Both connections accept the header. -/
theorem verdict_any_nonce_optionsCam :
    ∃ c' r, r.status ≠ 401 ∧
      step lockedServer (.new "6f1ed002ab5595859014ebf0951522d9") (.request optionsCam oneStream) =
        some (c', [.response r]) ∧
      step lockedServer (.new "c7d2e6b04f1a4c0c9a6b1f3e5d8a7b90") (.request optionsCam oneStream) =
        some (c'.withNonce "c7d2e6b04f1a4c0c9a6b1f3e5d8a7b90", [.response r]) := by
  have hexec : exec (next lockedServer) (.new "6f1ed002ab5595859014ebf0951522d9") [] =
      some (.new "6f1ed002ab5595859014ebf0951522d9") := rfl
  exact (verdict_any_nonce rfl hexec rfl "c7d2e6b04f1a4c0c9a6b1f3e5d8a7b90" optionsCam
    oneStream).2.1 ((checkAuth_iff rfl optionsCam).1 computed_optionsCam.1)

/-- A header with the nonce of one connection is accepted by another. -/
theorem captured_header_accepted :
    optionsCam.nonce = some "6f1ed002ab5595859014ebf0951522d9" ∧
    step lockedServer (.new "c7d2e6b04f1a4c0c9a6b1f3e5d8a7b90") (.request optionsCam oneStream) =
      some (.new "c7d2e6b04f1a4c0c9a6b1f3e5d8a7b90", [.response (handleOptions 1)]) := by
  refine ⟨computed_optionsCam.2, ?_⟩
  rw [step_reading rfl, read, if_pos computed_optionsCam.1]
  rfl

end RtspServer
