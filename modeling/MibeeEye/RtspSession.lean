/-
**Requests, responses and sessions of the RTSP server.**

The first part of `crates/protocols/src/rtsp_server/server.rs`: the methods, a parsed request, the
states of a session, the responses, and a handler for each method.  A handler is a function from a
session to a response and the session after it; the session identifier that `SETUP` generates is
an argument.

Main definitions:

* `RtspServer.RtspMethod`, `RtspServer.ParsedRequest` — requests;
* `RtspServer.Response`, `RtspServer.buildResponse` — responses, and their bytes;
* `RtspServer.SessionState` — the states of a session;
* `RtspServer.handleOptions`, `RtspServer.handleDescribe`, `RtspServer.handleSetup`,
  `RtspServer.handlePlay`, `RtspServer.handlePause`, `RtspServer.handleTeardown` — the handlers;
* `RtspServer.checkAuth` — the authentication of a request.
-/

import MibeeEye.RtspAuth
import MibeeEye.RtspFraming
import MibeeEye.RtspStreams

set_option relaxedAutoImplicit false
set_option autoImplicit false

namespace RtspServer

open Text Wire

/-! ### Requests -/

/-- `RtspMethod`. -/
inductive RtspMethod
  | options
  | describe
  | setup
  | play
  | pause
  | teardown
  | announce
  | getParameter
  | setParameter
  deriving DecidableEq, Repr

/-- `Display for RtspMethod`. -/
def RtspMethod.name : RtspMethod → String
  | .options => "OPTIONS"
  | .describe => "DESCRIBE"
  | .setup => "SETUP"
  | .play => "PLAY"
  | .pause => "PAUSE"
  | .teardown => "TEARDOWN"
  | .announce => "ANNOUNCE"
  | .getParameter => "GET_PARAMETER"
  | .setParameter => "SET_PARAMETER"

/-- `ParsedRequest`. -/
structure ParsedRequest where
  method : RtspMethod
  uri : String
  headers : List (String × String)
  body : List UInt8 := []
  cseq : UInt32
  deriving DecidableEq, Repr

/-- The `Session` header of a request, empty if there is none. -/
def ParsedRequest.sessionId (req : ParsedRequest) : String :=
  (getHeader req.headers "Session").getD ""

/-- `RtspServerConfig`, without the port. -/
structure RtspServerConfig where
  authRequired : Bool := false
  realm : String := "mibee-eye RTSP Server"
  username : String := ""
  password : String := ""
  deriving DecidableEq, Repr

/-- `check_auth`, which never fails. -/
def checkAuth (req : ParsedRequest) (config : RtspServerConfig) : Bool :=
  if config.authRequired then
    match getHeader req.headers "Authorization" with
    | some header =>
        verifyDigestAuth header req.method.name req.uri config.username config.password config.realm
    | none => false
  else true

/-! ### Responses -/

/-- What `build_response` is given. -/
structure Response where
  cseq : UInt32
  status : UInt16
  reason : String
  headers : List (String × String) := []
  body : List UInt8 := []
  deriving DecidableEq, Repr

/-- `build_response`. -/
def buildResponse (r : Response) : List UInt8 :=
  asBytes s!"RTSP/1.0 {r.status} {r.reason}\r\nCSeq: {r.cseq}\r\n" ++
    r.headers.flatMap (fun h => asBytes s!"{h.1}: {h.2}\r\n") ++
    (if r.body = [] then [] else asBytes s!"Content-Length: {r.body.length}\r\n") ++
    asBytes "\r\n" ++ r.body

/-- `build_unauthorized_response`. -/
def unauthorizedResponse (cseq : UInt32) (realm nonce : String) : Response where
  cseq := cseq
  status := 401
  reason := "Unauthorized"
  headers := [("WWW-Authenticate", buildDigestChallenge realm nonce)]

/-- `build_ok_response`. -/
def okResponse (cseq : UInt32) (headers : List (String × String)) (body : List UInt8) : Response :=
  { cseq, status := 200, reason := "OK", headers, body }

/-- `build_not_found_response`. -/
def notFoundResponse (cseq : UInt32) : Response := { cseq, status := 404, reason := "Not Found" }

/-- `build_invalid_state_response`. -/
def invalidStateResponse (cseq : UInt32) : Response :=
  { cseq, status := 455, reason := "Method Not Valid In This State" }

/-- `build_unsupported_transport_response`. -/
def unsupportedTransportResponse (cseq : UInt32) : Response :=
  { cseq, status := 461, reason := "Unsupported Transport" }

/-- The response of `handle_play` to a session identifier that is not the session's. -/
def sessionNotFoundResponse (cseq : UInt32) : Response :=
  { cseq, status := 454, reason := "Session Not Found" }

/-- The response to a method that is not supported. -/
def notSupportedResponse (cseq : UInt32) : Response :=
  { cseq, status := 551, reason := "Option not supported" }

/-! ### Sessions -/

/-- `SessionState`. -/
inductive SessionState
  | init
  | described (streamPath : String)
  | setup (sessionId : String) (transport : TransportInfo) (streamPath : String)
  | playing (sessionId : String) (transport : TransportInfo) (streamPath : String) (ssrc : UInt32)
  | teardown
  deriving DecidableEq, Repr

/-! ### Handlers -/

/-- `handle_options`. -/
def handleOptions (cseq : UInt32) : Response :=
  okResponse cseq [("Public", "DESCRIBE, SETUP, TEARDOWN, PLAY, PAUSE, OPTIONS, GET_PARAMETER")] []

/-- `handle_describe`. -/
def handleDescribe (cseq : UInt32) (uri : String) (stream : StreamConfig) :
    Response × SessionState :=
  let baseUrl := String.ofList (trimEndMatches stream.urlPath.toList uri.toList)
  (okResponse cseq [("Content-Type", "application/sdp"), ("Content-Base", baseUrl)]
    (asBytes stream.sdpBody), .described stream.path)

/-- The transport with which `SETUP` answers: TCP, on the channels the client asked for. -/
def responseTransport (clientTransport : TransportInfo) (sessionId : String) (ssrc : UInt32) :
    TransportInfo where
  interleaved := some (clientTransport.interleaved.getD (0, 1))
  sessionId := sessionId
  ssrc := some ssrc
  mode := some "play"

/-- `handle_setup`.  The stream is looked for by the uri; a map with one stream has no other. -/
def handleSetup (cseq : UInt32) (uri transportHeader : String) (streams : StreamMap)
    (session : SessionState) (sessionId : String) : Response × SessionState :=
  match findStreamByUri uri streams <|>
    (if streams.length = 1 then streams.head?.map Prod.snd else none) with
  | none => (notFoundResponse cseq, session)
  | some stream =>
      let transport := responseTransport (.parse transportHeader) sessionId stream.ssrc
      (okResponse cseq [("Transport", transport.serialize), ("Session", sessionId)] [],
        .setup sessionId transport stream.path)

/-- `handle_play`. -/
def handlePlay (cseq : UInt32) (sessionId : String) (session : SessionState) :
    Response × SessionState :=
  match session with
  | .setup sid transport streamPath =>
      if sid ≠ sessionId then (sessionNotFoundResponse cseq, session)
      else (okResponse cseq [("Session", sessionId), ("Range", "npt=0.000-")] [],
        .playing sid transport streamPath (transport.ssrc.getD 0))
  | _ => (invalidStateResponse cseq, session)

/-- `handle_teardown`. -/
def handleTeardown (cseq : UInt32) (sessionId : String) : Response × SessionState :=
  (okResponse cseq [("Session", sessionId)] [], .teardown)

/-- `handle_pause`. -/
def handlePause (cseq : UInt32) (sessionId : String) (session : SessionState) : Response :=
  match session with
  | .playing .. => okResponse cseq [("Session", sessionId)] []
  | _ => invalidStateResponse cseq

/-- `handle_get_parameter`. -/
def handleGetParameter (cseq : UInt32) : Response := okResponse cseq [] []

/-! ### No handler answers with a challenge -/

@[simp] theorem unauthorizedResponse_status (cseq : UInt32) (realm nonce : String) :
    (unauthorizedResponse cseq realm nonce).status = 401 := rfl

@[simp] theorem okResponse_status (cseq : UInt32) (headers : List (String × String))
    (body : List UInt8) : (okResponse cseq headers body).status = 200 := rfl

@[simp] theorem notFoundResponse_status (cseq : UInt32) :
    (notFoundResponse cseq).status = 404 := rfl

@[simp] theorem invalidStateResponse_status (cseq : UInt32) :
    (invalidStateResponse cseq).status = 455 := rfl

@[simp] theorem unsupportedTransportResponse_status (cseq : UInt32) :
    (unsupportedTransportResponse cseq).status = 461 := rfl

@[simp] theorem sessionNotFoundResponse_status (cseq : UInt32) :
    (sessionNotFoundResponse cseq).status = 454 := rfl

@[simp] theorem notSupportedResponse_status (cseq : UInt32) :
    (notSupportedResponse cseq).status = 551 := rfl

theorem handleSetup_status (cseq : UInt32) (uri transportHeader : String) (streams : StreamMap)
    (session : SessionState) (sessionId : String) :
    (handleSetup cseq uri transportHeader streams session sessionId).1.status ≠ 401 := by
  unfold handleSetup
  split <;> simp

theorem handlePlay_status (cseq : UInt32) (sessionId : String) (session : SessionState) :
    (handlePlay cseq sessionId session).1.status ≠ 401 := by
  unfold handlePlay
  split
  · split <;> simp
  · simp

theorem handlePause_status (cseq : UInt32) (sessionId : String) (session : SessionState) :
    (handlePause cseq sessionId session).status ≠ 401 := by
  unfold handlePause
  split <;> simp

end RtspServer
