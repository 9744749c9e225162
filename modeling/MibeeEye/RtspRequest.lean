/-
**Reading a request.**

`read_rtsp_request` in `crates/protocols/src/rtsp_server/server.rs` reads a request line, header
lines and a body from a buffered reader.  It waits whenever the bytes that have arrived do not
suffice, and keeps in its local variables what it has read.  The model is a reader that is polled:
its state is those variables, and it takes one byte at a time.

Main definitions:

* `RtspServer.RequestReading`, `RtspServer.feed` — **`read_rtsp_request`**, between two bytes;
* `RtspServer.WireRequest`, with `bytes` — a well-formed request as it travels;
* `RtspServer.WireRequest.parsed` — what is to be read.

Main results:

* `RtspServer.reads_bytes` — **a well-formed request whose method is known is read, up to its last
  byte**.
-/

import MibeeEye.PolledReader
import MibeeEye.RtspSession

set_option relaxedAutoImplicit false
set_option autoImplicit false

namespace RtspServer

open Text Wire PolledReader

/-! ### The parts of a request -/

/-- `FromStr for RtspMethod`. -/
@[grind =] def RtspMethod.fromStr (s : String) : Except String RtspMethod :=
  if s = "OPTIONS" then .ok .options
  else if s = "DESCRIBE" then .ok .describe
  else if s = "SETUP" then .ok .setup
  else if s = "PLAY" then .ok .play
  else if s = "PAUSE" then .ok .pause
  else if s = "TEARDOWN" then .ok .teardown
  else if s = "ANNOUNCE" then .ok .announce
  else if s = "GET_PARAMETER" then .ok .getParameter
  else if s = "SET_PARAMETER" then .ok .setParameter
  else .error ("Unknown RTSP method: " ++ s)

/-- A line without its end. -/
def trimLine (line : String) : List Char :=
  trimEndMatches ['\n'] (trimEndMatches ['\r', '\n'] line.toList)

/-- The method and the uri of a request line, which is cut at its first two spaces. -/
def parseRequestLine (line : List Char) : Except String (RtspMethod × String) :=
  match splitOnce (· == ' ') line with
  | some (method, rest) =>
    match splitOnce (· == ' ') rest with
    | some (uri, _) => do
        let method ← RtspMethod.fromStr (String.ofList method)
        return (method, String.ofList uri)
    | none => .error ("Invalid RTSP request line: " ++ String.ofList line)
  | none => .error ("Invalid RTSP request line: " ++ String.ofList line)

/-- The name and the value of a header line. -/
def parseHeader (line : List Char) : Option (String × String) :=
  (splitOnce (· == ':') line).map fun p => (String.ofList (trim p.1), String.ofList (trim p.2))

/-- The number in a header, zero if there is none below `bound`. -/
def headerNumber (bound : ℕ) (headers : List (String × String)) (name : String) : ℕ :=
  ((getHeader headers name).bind fun v => parseUnsigned 10 bound v.toList).getD 0

/-- `content_length`, of type `usize`. -/
def contentLength (headers : List (String × String)) : ℕ :=
  headerNumber (2 ^ 64) headers "Content-Length"

/-- The request that is returned. -/
def parsedRequest (method : RtspMethod) (uri : String) (headers : List (String × String))
    (body : List UInt8) : ParsedRequest :=
  { method, uri, headers, body, cseq := UInt32.ofNat (headerNumber (2 ^ 32) headers "CSeq") }

/-! ### The reader -/

/-- The local variables of `read_rtsp_request` while it waits. -/
inductive RequestReading
  /-- In `read_line` for the request line. -/
  | requestLine (line : List UInt8)
  /-- In `read_line` for a header line. -/
  | headerLine (method : RtspMethod) (uri : String) (headers : List (String × String))
      (line : List UInt8)
  /-- In `read_exact` for the body. -/
  | body (method : RtspMethod) (uri : String) (headers : List (String × String))
      (body : List UInt8)
  deriving DecidableEq, Repr

/-- What has become of `read_rtsp_request`. -/
abbrev ReadProgress := Progress RequestReading (Except String ParsedRequest)

/-- The request line has been read.  An empty one is skipped. -/
def endRequestLine (line : String) : ReadProgress :=
  let trimmed := trimLine line
  if trimmed = [] then .more (.requestLine [])
  else
    match parseRequestLine trimmed with
    | .ok (method, uri) => .more (.headerLine method uri [] [])
    | .error e => .done (.error e)

/-- A header line has been read.  An empty one ends the headers. -/
def endHeaderLine (method : RtspMethod) (uri : String) (headers : List (String × String))
    (line : String) : ReadProgress :=
  let trimmed := trimLine line
  if trimmed = [] then
    if contentLength headers = 0 then .done (.ok (parsedRequest method uri headers []))
    else .more (.body method uri headers [])
  else .more (.headerLine method uri (headers ++ (parseHeader trimmed).toList) [])

/-- `read_line` takes a byte: the line ends at a line feed, and has to be UTF-8 then. -/
def feedLine (more : List UInt8 → RequestReading) (ends : String → ReadProgress) (line : List UInt8)
    (b : UInt8) : ReadProgress :=
  if b = 0x0A then
    match fromUtf8 (line ++ [b]) with
    | some s => ends s
    | none => .done (.error "stream did not contain valid UTF-8")
  else .more (more (line ++ [b]))

/-- **`read_rtsp_request`** takes a byte. -/
@[grind =] def feed : RequestReading → UInt8 → ReadProgress
  | .requestLine line, b => feedLine .requestLine endRequestLine line b
  | .headerLine method uri headers line, b =>
      feedLine (.headerLine method uri headers) (endHeaderLine method uri headers) line b
  | .body method uri headers body, b =>
      if body.length + 1 < contentLength headers then .more (.body method uri headers (body ++ [b]))
      else .done (.ok (parsedRequest method uri headers (body ++ [b])))

/-! ### Requests as they travel -/

/-- The characters of a text that stands within a line. -/
def InLine (s : String) : Prop := '\r' ∉ s.toList ∧ '\n' ∉ s.toList

instance (s : String) : Decidable (InLine s) := inferInstanceAs (Decidable (_ ∧ _))

/-- A well-formed request: the method and the uri have no space, the name of a header has no colon,
a header has no white space around its name and value, and the body is as long as its header
says. -/
structure WireRequest where
  method : String
  uri : String
  version : String
  headers : List (String × String)
  body : List UInt8
  method_ok : InLine method ∧ ' ' ∉ method.toList
  uri_ok : InLine uri ∧ ' ' ∉ uri.toList
  version_ok : InLine version
  headers_ok : ∀ h ∈ headers, (InLine h.1 ∧ ':' ∉ h.1.toList ∧ trim h.1.toList = h.1.toList) ∧
    InLine h.2 ∧ trim h.2.toList = h.2.toList
  body_ok : body.length = contentLength headers

/-- The end of a line. -/
def crlf : String := "\r\n"

/-- The request line. -/
def WireRequest.requestLine (r : WireRequest) : String :=
  r.method ++ " " ++ r.uri ++ " " ++ r.version

/-- A header line. -/
def headerText (h : String × String) : String := h.1 ++ ": " ++ h.2

/-- The bytes of a request. -/
def WireRequest.bytes (r : WireRequest) : List UInt8 :=
  asBytes (r.requestLine ++ crlf) ++ r.headers.flatMap (fun h => asBytes (headerText h ++ crlf)) ++
    asBytes crlf ++ r.body

/-- The request that is to be read, unless its method is unknown. -/
def WireRequest.parsed (r : WireRequest) : Except String ParsedRequest :=
  (RtspMethod.fromStr r.method).map fun method => parsedRequest method r.uri r.headers r.body

/-! ### Lines are read -/

theorem InLine.append {s t : String} (hs : InLine s) (ht : InLine t) : InLine (s ++ t) := by
  simp only [InLine, String.toList_append, List.mem_append, not_or]
  exact ⟨⟨hs.1, ht.1⟩, hs.2, ht.2⟩

theorem trimLine_crlf {s : String} (hs : InLine s) : trimLine (s ++ crlf) = s.toList := by
  have hn : ∀ p : List Char, '\n' ∈ p → ¬ p <:+ s.toList := fun p hp h => hs.2 (h.subset hp)
  have hcrlf : (s ++ crlf).toList = s.toList ++ ['\r', '\n'] := by
    rw [String.toList_append]
    rfl
  rw [trimLine, hcrlf, trimEndMatches_append (by simp), trimEndMatches_of_not (hn _ (by simp)),
    trimEndMatches_of_not (hn _ (by simp))]

section line

variable {more : List UInt8 → RequestReading} {ends : String → ReadProgress}

/-- Bytes without a line feed extend the line. -/
theorem goes_line (h : ∀ line b, feed (more line) b = feedLine more ends line b) (line : List UInt8)
    {w : List UInt8} (hw : (0x0A : UInt8) ∉ w) : Goes feed (more line) w (more (line ++ w)) := by
  induction w generalizing line with
  | nil =>
      rw [List.append_nil]
      exact Goes.refl _
  | cons b w ih =>
      rw [List.mem_cons, not_or] at hw
      have hb : feed (more line) b = .more (more (line ++ [b])) := by
        rw [h, feedLine, if_neg (Ne.symm hw.1)]
      have := (Goes.single hb).trans (ih (line ++ [b]) hw.2)
      rwa [List.append_assoc] at this

theorem feed_end (h : ∀ line b, feed (more line) b = feedLine more ends line b) {s : String}
    (hs : InLine s) : ∃ w, asBytes (s ++ crlf) = w ++ [0x0A] ∧ Goes feed (more []) w (more w) ∧
      feed (more w) 0x0A = ends (s ++ crlf) := by
  have hbytes : asBytes (s ++ crlf) = (asBytes s ++ [0x0D]) ++ [0x0A] := by
    rw [asBytes_append, List.append_assoc]
    congr 1
  refine ⟨asBytes s ++ [0x0D], hbytes, ?_, ?_⟩
  · refine goes_line h [] ?_
    have hlf : (0x0A : UInt8) ∉ asBytes s := notMem_asBytes (by decide) (by decide) hs.2
    simpa using hlf
  · rw [h, feedLine, if_pos rfl, ← hbytes, fromUtf8_asBytes]

/-- A line is read, and the reader goes on. -/
theorem goes_crlf (h : ∀ line b, feed (more line) b = feedLine more ends line b) {s : String}
    (hs : InLine s) {r : RequestReading} (hr : ends (s ++ crlf) = .more r) :
    Goes feed (more []) (asBytes (s ++ crlf)) r := by
  obtain ⟨w, hbytes, hgoes, hend⟩ := feed_end h hs
  rw [hbytes]
  exact hgoes.trans (Goes.single (hend.trans hr))

/-- A line is read, and with it the request. -/
theorem reads_crlf (h : ∀ line b, feed (more line) b = feedLine more ends line b) {s : String}
    (hs : InLine s) {x : Except String ParsedRequest} (hx : ends (s ++ crlf) = .done x) :
    Reads feed (more []) (asBytes (s ++ crlf)) x := by
  obtain ⟨w, hbytes, hgoes, hend⟩ := feed_end h hs
  rw [hbytes]
  exact hgoes.reads (Reads.single (hend.trans hx))

end line

/-! ### A request is read -/

theorem inLine_requestLine (r : WireRequest) : InLine r.requestLine := by
  have hspace : InLine " " := by decide
  exact (((r.method_ok.1.append hspace).append r.uri_ok.1).append hspace).append r.version_ok

theorem toList_requestLine (r : WireRequest) : r.requestLine.toList =
    r.method.toList ++ ' ' :: (r.uri.toList ++ ' ' :: r.version.toList) := by
  simp [WireRequest.requestLine, String.toList_append]

theorem parseRequestLine_requestLine {r : WireRequest} {method : RtspMethod}
    (h : RtspMethod.fromStr r.method = .ok method) :
    parseRequestLine r.requestLine.toList = .ok (method, r.uri) := by
  have hspace : ∀ {s : String}, ' ' ∉ s.toList → ∀ c ∈ s.toList, (c == ' ') = false := by
    intro s hs c hc
    exact beq_eq_false_iff_ne.2 fun h => hs (h ▸ hc)
  rw [parseRequestLine, toList_requestLine, splitOnce_append (hspace r.method_ok.2) rfl]
  dsimp only
  rw [splitOnce_append (hspace r.uri_ok.2) rfl]
  dsimp only
  rw [String.ofList_toList, String.ofList_toList, h]
  rfl

/-- The request line is read. -/
theorem goes_requestLine {r : WireRequest} {method : RtspMethod}
    (h : RtspMethod.fromStr r.method = .ok method) :
    Goes feed (.requestLine []) (asBytes (r.requestLine ++ crlf))
      (.headerLine method r.uri [] []) := by
  refine goes_crlf (fun _ _ => rfl) (inLine_requestLine r) ?_
  rw [endRequestLine, trimLine_crlf (inLine_requestLine r), parseRequestLine_requestLine h,
    if_neg (by simp [toList_requestLine])]

theorem toList_headerText (h : String × String) :
    (headerText h).toList = h.1.toList ++ ':' :: ' ' :: h.2.toList := by
  simp [headerText, String.toList_append]

theorem parseHeader_headerText {h : String × String} (hcolon : ':' ∉ h.1.toList)
    (hname : trim h.1.toList = h.1.toList) (hvalue : trim h.2.toList = h.2.toList) :
    parseHeader (headerText h).toList = some h := by
  have hspace : trim (' ' :: h.2.toList) = trim h.2.toList := by
    rw [trim, trim, List.dropWhile_cons_of_pos (by decide)]
  rw [parseHeader, toList_headerText, splitOnce_append _ rfl]
  · simp only [Option.map_some]
    rw [hspace, hname, hvalue, String.ofList_toList, String.ofList_toList]
  · intro c hc
    exact beq_eq_false_iff_ne.2 fun h => hcolon (h ▸ hc)

/-- The header lines are read. -/
theorem goes_headers (method : RtspMethod) (uri : String) {headers : List (String × String)}
    (hok : ∀ h ∈ headers, (InLine h.1 ∧ ':' ∉ h.1.toList ∧ trim h.1.toList = h.1.toList) ∧
      InLine h.2 ∧ trim h.2.toList = h.2.toList) (before : List (String × String)) :
    Goes feed (.headerLine method uri before [])
      (headers.flatMap fun h => asBytes (headerText h ++ crlf))
      (.headerLine method uri (before ++ headers) []) := by
  induction headers generalizing before with
  | nil =>
      rw [List.append_nil]
      exact Goes.refl _
  | cons h headers ih =>
      obtain ⟨⟨hname, hcolon, hntrim⟩, hvalue, hvtrim⟩ := hok h List.mem_cons_self
      have hline : InLine (headerText h) := (hname.append (by decide)).append hvalue
      have hgoes : Goes feed (.headerLine method uri before []) (asBytes (headerText h ++ crlf))
          (.headerLine method uri (before ++ [h]) []) := by
        refine goes_crlf (fun _ _ => rfl) hline ?_
        rw [endHeaderLine, trimLine_crlf hline, parseHeader_headerText hcolon hntrim hvtrim,
          if_neg (by simp [toList_headerText])]
        rfl
      have := hgoes.trans (ih (fun x hx => hok x (List.mem_cons_of_mem h hx)) (before ++ [h]))
      rwa [List.append_assoc] at this

/-- The body is read. -/
theorem reads_body (method : RtspMethod) (uri : String) (headers : List (String × String))
    {body : List UInt8} (before : List UInt8) (hne : body ≠ [])
    (hlen : before.length + body.length = contentLength headers) :
    Reads feed (.body method uri headers before) body
      (.ok (parsedRequest method uri headers (before ++ body))) := by
  induction body generalizing before with
  | nil => exact absurd rfl hne
  | cons b body ih =>
      rw [List.length_cons] at hlen
      cases body with
      | nil =>
          refine Reads.single ?_
          rw [feed, if_neg (by simp at hlen; omega)]
      | cons c body =>
          have hb : feed (.body method uri headers before) b =
              .more (.body method uri headers (before ++ [b])) := by
            rw [feed, if_pos (by simp at hlen; omega)]
          have := (Goes.single hb).reads (ih (before ++ [b]) (by simp) (by simp at hlen ⊢; omega))
          rwa [List.append_assoc] at this

/-- The empty line and the body are read. -/
theorem reads_end (method : RtspMethod) (uri : String) {headers : List (String × String)}
    {body : List UInt8} (hlen : body.length = contentLength headers) :
    Reads feed (.headerLine method uri headers []) (asBytes crlf ++ body)
      (.ok (parsedRequest method uri headers body)) := by
  have hempty : InLine "" := by decide
  have htrim : trimLine ("" ++ crlf) = [] := trimLine_crlf hempty
  rw [← @String.empty_append crlf]
  by_cases hzero : contentLength headers = 0
  · obtain rfl := List.length_eq_zero_iff.1 (hlen.trans hzero)
    rw [List.append_nil]
    refine reads_crlf (fun _ _ => rfl) hempty ?_
    rw [endHeaderLine, htrim, if_pos rfl, if_pos hzero]
  · have hgoes : Goes feed (.headerLine method uri headers []) (asBytes ("" ++ crlf))
        (.body method uri headers []) := by
      refine goes_crlf (fun _ _ => rfl) hempty ?_
      rw [endHeaderLine, htrim, if_pos rfl, if_neg hzero]
    have hne : body ≠ [] := fun h => hzero (by rw [← hlen, h]; rfl)
    exact hgoes.reads (reads_body method uri headers [] hne (by simpa using hlen))

/-- **A well-formed request whose method is known is read, up to its last byte.** -/
theorem reads_bytes {r : WireRequest} {req : ParsedRequest} (h : r.parsed = .ok req) :
    Reads feed (.requestLine []) r.bytes (.ok req) := by
  cases hm : RtspMethod.fromStr r.method with
  | error e =>
      rw [WireRequest.parsed, hm] at h
      cases h
  | ok method =>
      rw [WireRequest.parsed, hm] at h
      cases h
      rw [WireRequest.bytes, List.append_assoc, List.append_assoc]
      refine (goes_requestLine hm).reads ((goes_headers method r.uri r.headers_ok []).reads ?_)
      exact reads_end method r.uri r.body_ok

end RtspServer
