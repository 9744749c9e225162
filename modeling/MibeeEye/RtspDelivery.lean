/-
**Requests during delivery.**

While a stream is delivered, the loop of `handle_connection` waits in a `select!` for a packet of the
stream, for a request of the client and for the timer.  Each turn of the loop makes a new call of
`read_rtsp_request`, and when another branch is taken the call is dropped with what it has read:
bytes that have arrived but were not read stay in the buffered reader, bytes that were read are
lost.  The call also knows requests only; the interleaved frames in which a client sends its RTCP
reports are read as if they were request lines.

The model puts the bytes of the connection under the loop of `RtspServer.deliver`.  A step is the
arrival of bytes, a poll of `read_rtsp_request`, or a turn by another branch.

Main definitions:

* `RtspServer.ClientUnit` — what a client sends;
* `RtspServer.Loop`, `RtspServer.loopStep` — **the loop with its bytes**;
* `RtspServer.loopExit` — why a step ends the loop;
* `RtspServer.RequestsSurvive` — requests are answered in order, and the loop ends for a reason.

Main results:

* `RtspServer.loopStep_conn` — the steps of the loop are steps of the connection;
* `RtspServer.closed_iff_loopExit` — the reasons are complete;
* `RtspServer.requests_survive` — **requests survive when no other branch is taken while one of them
  is half read**, and the client sends nothing else.
-/

import MibeeEye.RtspConnection
import MibeeEye.RtspRequest

set_option relaxedAutoImplicit false
set_option autoImplicit false

namespace RtspServer

open Machine PolledReader Wire

/-! ### What a client sends -/

/-- A request, or an interleaved frame. -/
inductive ClientUnit
  | request (r : WireRequest)
  | frame (channel : UInt8) (data : List UInt8) (fits : data.length ≤ 65535)

/-- The bytes of a unit. -/
def ClientUnit.bytes : ClientUnit → List UInt8
  | .request r => r.bytes
  | .frame channel data _ => 0x24 :: channel :: beBytes 2 data.length ++ data

/-- The request of a unit. -/
def ClientUnit.request? : ClientUnit → Option WireRequest
  | .request r => some r
  | .frame .. => none

/-- The bytes that a client sends. -/
def clientBytes (units : List ClientUnit) : List UInt8 := units.flatMap ClientUnit.bytes

/-- The requests among them, as they are to be read. -/
def clientRequests (units : List ClientUnit) : List (Except String ParsedRequest) :=
  (units.filterMap ClientUnit.request?).map WireRequest.parsed

/-! ### The loop -/

/-- The loop: the connection, the bytes that have arrived and were not read, whether the client has
closed its side, the call of `read_rtsp_request`; and all bytes and answered requests up to now. -/
structure Loop where
  conn : Conn
  unread : List UInt8 := []
  eof : Bool := false
  reading : RequestReading := .requestLine []
  arrived : List UInt8 := []
  answered : List ParsedRequest := []
  deriving DecidableEq, Repr

/-- What can happen. -/
inductive LoopEvent
  | arrive (piece : List UInt8)
  /-- The client closes its side. -/
  | close
  /-- `select!` polls `read_rtsp_request`. -/
  | poll (env : Env)
  /-- `select!` takes another branch. -/
  | turn (e : Event)

/-- The events that `read_rtsp_request` causes. -/
def Event.ofRead : Event → Bool
  | .request .. | .endOfInput | .readError => true
  | .frame .. | .lagged _ | .streamEnded | .tick .. => false

/-- A turn of the loop ends, and with it the call of `read_rtsp_request`. -/
def Loop.turn (s : Loop) (d : Delivery) (e : Event) : Loop :=
  { s with conn := (deliver s.conn d e).1, reading := .requestLine [] }

/-- What `read_rtsp_request` returns at the end of the input: it fails if it has read a part of a
request. -/
def RequestReading.atEof : RequestReading → Event
  | .requestLine [] => .endOfInput
  | _ => .readError

/-- `read_rtsp_request` is polled. -/
def Loop.poll (s : Loop) (d : Delivery) (env : Env) : Loop :=
  match PolledReader.poll feed s.reading s.unread with
  | (.more r, rest) =>
      if s.eof then { s.turn d r.atEof with unread := rest }
      else { s with reading := r, unread := rest }
  | (.done (.ok req), rest) =>
      { s.turn d (.request req env) with unread := rest, answered := s.answered ++ [req] }
  | (.done (.error _), rest) => { s.turn d .readError with unread := rest }

/-- **One step.** -/
def loopStep (s : Loop) (e : LoopEvent) : Option Loop :=
  match e, s.conn.phase with
  | .arrive piece, _ =>
      if s.eof then none
      else some { s with unread := s.unread ++ piece, arrived := s.arrived ++ piece }
  | .close, _ => some { s with eof := true }
  | .poll env, .delivering d => some (s.poll d env)
  | .turn e, .delivering d => if e.ofRead then none else some (s.turn d e)
  | _, _ => none

/-- Why the loop ends. -/
inductive Exit
  | teardown
  | pause
  | timeout
  | endOfStream
  | writeError
  | readError
  deriving DecidableEq, Repr

/-- Why a turn by another branch ends the loop. -/
def turnExit (d : Delivery) : Event → Option Exit
  | .streamEnded => some .endOfStream
  | .frame data _ writeOk =>
      match buildInterleavedFrame d.interleaveChannel data with
      | .ok _ => if writeOk then none else some .writeError
      | .error _ => none
  | .tick now _ writeOk =>
      if idleTimeout < now - d.lastActivity then some .timeout
      else if writeOk then none else some .writeError
  | _ => none

/-- Why a request ends the loop. -/
def RtspMethod.exit : RtspMethod → Option Exit
  | .teardown => some .teardown
  | .pause => some .pause
  | _ => none

/-- Why a step ends the loop, if it does. -/
def loopExit (s : Loop) (e : LoopEvent) : Option Exit :=
  match e, s.conn.phase with
  | .poll _, .delivering _ =>
      match (PolledReader.poll feed s.reading s.unread).1 with
      | .more _ => if s.eof then some .endOfStream else none
      | .done (.ok req) => req.method.exit
      | .done (.error _) => some .readError
  | .turn e, .delivering d => turnExit d e
  | _, _ => none

/-- The loop is entered. -/
def Loop.start (conn : Conn) : Loop := { conn }

/-- The bytes that arrive in a run. -/
def arrivals (es : List LoopEvent) : List UInt8 :=
  es.flatMap fun e => match e with
    | .arrive piece => piece
    | _ => []

/-! ### The loop and the connection -/

/-- A request ends the loop, or the loop goes on. -/
theorem readDelivering_phase (c : Conn) (d : Delivery) (req : ParsedRequest) (env : Env) :
    (req.method.exit = none ∧ ∃ d', (readDelivering c d req env).1.phase = .delivering d') ∨
    req.method.exit ≠ none ∧ (readDelivering c d req env).1.phase = .closed := by
  unfold readDelivering
  cases req.method with
  | teardown => exact .inr ⟨Option.some_ne_none _, rfl⟩
  | pause => exact .inr ⟨Option.some_ne_none _, rfl⟩
  | _ => exact .inl ⟨rfl, _, rfl⟩

/-- Another branch ends the loop, or the loop goes on. -/
theorem deliver_turn_phase {c : Conn} {d : Delivery} {e : Event} (hc : c.phase = .delivering d)
    (he : e.ofRead = false) :
    (turnExit d e = none ∧ ∃ d', (deliver c d e).1.phase = .delivering d') ∨
    turnExit d e ≠ none ∧ (deliver c d e).1.phase = .closed := by
  cases e with
  | request req env => cases he
  | endOfInput => cases he
  | readError => cases he
  | lagged n => exact .inl ⟨rfl, d, hc⟩
  | streamEnded => exact .inr ⟨Option.some_ne_none _, rfl⟩
  | frame data now writeOk =>
      simp only [turnExit, deliver, deliverFrame]
      cases buildInterleavedFrame d.interleaveChannel data with
      | error e => exact .inl ⟨rfl, _, rfl⟩
      | ok frame =>
          cases writeOk with
          | true => exact .inl ⟨rfl, _, rfl⟩
          | false => exact .inr ⟨Option.some_ne_none _, rfl⟩
  | tick now ntp writeOk =>
      simp only [turnExit, deliver, deliverTick]
      by_cases hidle : idleTimeout < now - d.lastActivity
      · rw [if_pos hidle, if_pos hidle]
        exact .inr ⟨Option.some_ne_none _, rfl⟩
      · rw [if_neg hidle, if_neg hidle]
        obtain ⟨frame, hframe⟩ := buildInterleavedFrame_senderReport d.rtcpChannel d.ssrc ntp
          (ntpToRtp ntp 90000) d.packetCount d.octetCount
        rw [hframe]
        cases writeOk with
        | true => exact .inl ⟨rfl, _, rfl⟩
        | false => exact .inr ⟨Option.some_ne_none _, rfl⟩

/-- What a poll does. -/
theorem poll_cases (s : Loop) (d : Delivery) (env : Env) :
    (∃ r rest, PolledReader.poll feed s.reading s.unread = (.more r, rest) ∧
      ((s.eof = true ∧ s.poll d env = { s.turn d r.atEof with unread := rest }) ∨
      (s.eof = false ∧ s.poll d env = { s with reading := r, unread := rest }))) ∨
    (∃ req rest, PolledReader.poll feed s.reading s.unread = (.done (.ok req), rest) ∧
      s.poll d env =
        { s.turn d (.request req env) with unread := rest, answered := s.answered ++ [req] }) ∨
    ∃ msg rest, PolledReader.poll feed s.reading s.unread = (.done (.error msg), rest) ∧
      s.poll d env = { s.turn d .readError with unread := rest } := by
  rw [Loop.poll]
  cases hpoll : PolledReader.poll feed s.reading s.unread with
  | mk progress rest =>
      cases progress with
      | more r =>
          refine .inl ⟨r, rest, rfl, ?_⟩
          cases heof : s.eof with
          | true => exact .inl ⟨rfl, rfl⟩
          | false => exact .inr ⟨rfl, rfl⟩
      | done x =>
          cases x with
          | ok req => exact .inr (.inl ⟨req, rest, rfl, rfl⟩)
          | error msg => exact .inr (.inr ⟨msg, rest, rfl, rfl⟩)

/-- What a step does. -/
theorem loopStep_cases {s s' : Loop} {e : LoopEvent} (h : loopStep s e = some s') :
    (∃ piece, e = .arrive piece ∧
      s' = { s with unread := s.unread ++ piece, arrived := s.arrived ++ piece }) ∨
    (e = .close ∧ s' = { s with eof := true }) ∨
    (∃ env d, e = .poll env ∧ s.conn.phase = .delivering d ∧ s' = s.poll d env) ∨
    ∃ ev d, e = .turn ev ∧ s.conn.phase = .delivering d ∧ ev.ofRead = false ∧
      s' = s.turn d ev := by
  unfold loopStep at h
  split at h
  · split at h <;> cases h
    exact .inl ⟨_, rfl, rfl⟩
  · cases h
    exact .inr (.inl ⟨rfl, rfl⟩)
  · cases h
    exact .inr (.inr (.inl ⟨_, _, rfl, ‹_›, rfl⟩))
  · split at h
    · cases h
    · rename_i hread
      cases h
      exact .inr (.inr (.inr ⟨_, _, rfl, ‹_›, by simpa using hread, rfl⟩))
  · cases h

/-- **The steps of the loop are steps of the connection**, or leave it as it is. -/
theorem loopStep_conn (server : RtspServerInner) {s s' : Loop} {e : LoopEvent}
    (h : loopStep s e = some s') :
    s'.conn = s.conn ∨ ∃ ev, next server s.conn ev = some s'.conn := by
  have hturn : ∀ d ev, s.conn.phase = .delivering d →
      next server s.conn ev = some (s.turn d ev).conn := by
    intro d ev hd
    rw [next, step_delivering hd]
    rfl
  obtain ⟨piece, -, rfl⟩ | ⟨-, rfl⟩ | ⟨env, d, -, hd, rfl⟩ | ⟨ev, d, -, hd, -, rfl⟩ :=
    loopStep_cases h
  · exact .inl rfl
  · exact .inl rfl
  · obtain ⟨r, rest, -, ⟨-, hs⟩ | ⟨-, hs⟩⟩ | ⟨req, rest, -, hs⟩ | ⟨msg, rest, -, hs⟩ :=
      poll_cases s d env
    · rw [hs]
      exact .inr ⟨_, hturn d _ hd⟩
    · rw [hs]
      exact .inl rfl
    · rw [hs]
      exact .inr ⟨_, hturn d _ hd⟩
    · rw [hs]
      exact .inr ⟨_, hturn d _ hd⟩
  · exact .inr ⟨_, hturn d _ hd⟩

/-- A read that finds the end of the input ends the loop. -/
theorem deliver_atEof (c : Conn) (d : Delivery) (r : RequestReading) :
    (deliver c d r.atEof).1.phase = .closed := by
  unfold RequestReading.atEof
  split <;> rfl

/-- **The reasons are complete**: a step ends the loop exactly when there is one. -/
theorem closed_iff_loopExit {s s' : Loop} {d : Delivery} {e : LoopEvent}
    (hd : s.conn.phase = .delivering d) (h : loopStep s e = some s') :
    s'.conn.phase = .closed ↔ loopExit s e ≠ none := by
  obtain ⟨piece, rfl, rfl⟩ | ⟨rfl, rfl⟩ | ⟨env, d', rfl, hd', rfl⟩ | ⟨ev, d', rfl, hd', hev, rfl⟩ :=
    loopStep_cases h
  · exact iff_of_false (by rw [hd]; nofun) (by simp [loopExit])
  · exact iff_of_false (by rw [hd]; nofun) (by simp [loopExit])
  · cases hd.symm.trans hd'
    simp only [loopExit, hd]
    obtain ⟨r, rest, hpoll, ⟨heof, hs⟩ | ⟨heof, hs⟩⟩ | ⟨req, rest, hpoll, hs⟩ |
      ⟨msg, rest, hpoll, hs⟩ := poll_cases s d env
    · rw [hs, hpoll]
      dsimp only
      rw [heof]
      exact iff_of_true (deliver_atEof s.conn d r) nofun
    · rw [hs, hpoll]
      dsimp only
      rw [hd, heof]
      exact iff_of_false nofun (by simp)
    · rw [hs, hpoll]
      obtain ⟨hexit, d', hphase⟩ | ⟨hexit, hphase⟩ := readDelivering_phase s.conn d req env
      · refine iff_of_false ?_ (not_not.2 hexit)
        show (readDelivering s.conn d req env).1.phase ≠ .closed
        rw [hphase]
        nofun
      · exact iff_of_true hphase hexit
    · rw [hs, hpoll]
      exact iff_of_true rfl nofun
  · cases hd.symm.trans hd'
    simp only [loopExit, hd]
    obtain ⟨hexit, d', hphase⟩ | ⟨hexit, hphase⟩ := deliver_turn_phase hd hev
    · refine iff_of_false ?_ (not_not.2 hexit)
      show (deliver s.conn d ev).1.phase ≠ .closed
      rw [hphase]
      nofun
    · exact iff_of_true hphase hexit

/-! ### Requests survive -/

/-- The answered requests are the client's, in their order; and while the loop goes on, a request
that has arrived completely is answered when all bytes have been read. -/
structure Survives (units : List ClientUnit) (s : Loop) : Prop where
  answered : s.answered.map .ok <+: clientRequests units
  all_answered : (∃ d, s.conn.phase = .delivering d) → s.unread = [] → ∀ us, us <+: units →
    clientBytes us <+: s.arrived → clientRequests us <+: s.answered.map .ok

/-- Requests survive in all states of a run, and a step that ends the loop has a reason other than
that a read has failed. -/
def RequestsSurvive (conn : Conn) (units : List ClientUnit) (es : List LoopEvent) : Prop :=
  (∀ s, Passes loopStep (.start conn) es s → Survives units s) ∧
  ∀ s e s' d, Occurs loopStep (.start conn) es s e → s.conn.phase = .delivering d →
    loopStep s e = some s' → s'.conn.phase = .closed →
    ∃ x, loopExit s e = some x ∧ x ≠ .readError

/-- The unit is a request that can be read. -/
def ClientUnit.Readable : ClientUnit → Prop
  | .request r => ∃ req, r.parsed = .ok req
  | .frame .. => False

/-- The unit is a request that ends the loop. -/
def ClientUnit.ends : ClientUnit → Bool
  | .request r =>
    match r.parsed with
    | .ok req => req.method.exit.isSome
    | .error _ => false
  | .frame .. => false

/-- The units up to the first one that ends the loop. -/
@[grind =] def served : List ClientUnit → List ClientUnit
  | [] => []
  | u :: us => if u.ends then [u] else u :: served us

/-- No branch is taken while a request is half read, unless the loop ends with it. -/
def Undisturbed (conn : Conn) (es : List LoopEvent) : Prop :=
  ∀ s e s', Occurs loopStep (.start conn) es s (.turn e) → loopStep s (.turn e) = some s' →
    s'.conn.phase ≠ .closed → s.reading = .requestLine []

theorem mem_of_mem_served {u : ClientUnit} {units : List ClientUnit} (h : u ∈ served units) :
    u ∈ units := by
  induction units with
  | nil => exact h
  | cons v units ih =>
      rw [served] at h
      split at h
      · exact List.mem_singleton.1 h ▸ List.mem_cons_self
      · rcases List.mem_cons.1 h with rfl | h
        · exact List.mem_cons_self
        · exact List.mem_cons_of_mem v (ih h)

theorem clientBytes_append (us vs : List ClientUnit) :
    clientBytes (us ++ vs) = clientBytes us ++ clientBytes vs := List.flatMap_append

theorem clientRequests_append (us vs : List ClientUnit) :
    clientRequests (us ++ vs) = clientRequests us ++ clientRequests vs := by
  rw [clientRequests, List.filterMap_append, List.map_append]
  rfl

/-- The loop has read some units, and a part of what follows. -/
structure ReadUpTo (s : Loop) (before after : List ClientUnit) (part : List UInt8) : Prop where
  readable : ∀ u ∈ served after, u.Readable
  arrived : s.arrived = clientBytes before ++ (part ++ s.unread)
  goes : Goes feed (.requestLine []) part s.reading

/-- The answers are those to the units that have been read. -/
def Inv (units : List ClientUnit) (s : Loop) : Prop :=
  ∃ before after, units = before ++ after ∧ s.answered.map .ok = clientRequests before ∧
    ∀ d, s.conn.phase = .delivering d → ∃ part, ReadUpTo s before after part

/-- The next unit is a request that can be read. -/
theorem exists_request_of_readable {u : ClientUnit} {after : List ClientUnit}
    (h : ∀ v ∈ served (u :: after), v.Readable) :
    ∃ r req, u = .request r ∧ r.parsed = .ok req := by
  have hu : u.Readable := by
    refine h u ?_
    rw [served]
    split <;> exact List.mem_cons_self
  cases u with
  | frame channel data fits => exact hu.elim
  | request r =>
      obtain ⟨req, hreq⟩ := hu
      exact ⟨r, req, rfl, hreq⟩

/-- **A poll of a readable stream**: the next request is read, or the call goes on. -/
theorem ReadUpTo.poll {before after : List ClientUnit} {s : Loop} {part : List UInt8}
    (h : ReadUpTo s before after part) (harr : s.arrived <+: clientBytes (before ++ after)) :
    (∃ r, Goes feed (.requestLine []) (part ++ s.unread) r ∧
      PolledReader.poll feed s.reading s.unread = (.more r, [])) ∨
    ∃ r req rest after', after = .request r :: after' ∧ r.parsed = .ok req ∧
      part ++ s.unread = r.bytes ++ rest ∧
      PolledReader.poll feed s.reading s.unread = (.done (.ok req), rest) := by
  have hpre : part ++ s.unread <+: clientBytes after := by
    rw [h.arrived, clientBytes_append] at harr
    exact (List.prefix_append_right_inj _).1 harr
  cases after with
  | nil =>
      left
      obtain ⟨-, hunread⟩ := List.append_eq_nil_iff.1 (List.prefix_nil.1 hpre)
      refine ⟨s.reading, ?_, ?_⟩
      · rw [hunread, List.append_nil]
        exact h.goes
      · rw [hunread]
        rfl
  | cons u after =>
      obtain ⟨r, req, rfl, hreq⟩ := exists_request_of_readable h.readable
      -- the request is among the bytes that have arrived, or they are a part of it
      rcases (reads_bytes hreq).cases h.goes hpre with ⟨rest, hrest, hpoll⟩ | ⟨r', hgoes, hpoll⟩
      · exact .inr ⟨r, req, rest, after, rfl, hreq, hrest, hpoll⟩
      · exact .inl ⟨r', hgoes, hpoll⟩

/-- A request that has arrived completely is not half read. -/
theorem ReadUpTo.not_complete {before after : List ClientUnit} {s : Loop} {u : ClientUnit}
    {part : List UInt8} (h : ReadUpTo s before (u :: after) part) : ¬ u.bytes <+: part := by
  obtain ⟨r, req, rfl, hreq⟩ := exists_request_of_readable h.readable
  rintro ⟨rest, rfl⟩
  have hgoes := h.goes []
  rw [List.append_nil] at hgoes
  cases hgoes.symm.trans (reads_bytes hreq rest)

theorem Inv.survives {units : List ClientUnit} {s : Loop} (h : Inv units s) : Survives units s := by
  obtain ⟨before, after, rfl, hanswered, hread⟩ := h
  constructor
  · rw [hanswered, clientRequests_append]
    exact List.prefix_append _ _
  · rintro ⟨d, hd⟩ hunread us hus hbytes
    obtain ⟨part, hpart⟩ := hread d hd
    rw [hanswered]
    -- `us` ends within what was read, or goes beyond it
    rcases List.prefix_or_prefix_of_prefix hus (List.prefix_append before after) with h | h
    · obtain ⟨vs, rfl⟩ := h
      rw [clientRequests_append]
      exact List.prefix_append _ _
    · obtain ⟨vs, rfl⟩ := h
      cases vs with
      | nil => rw [List.append_nil]
      | cons u vs =>
          obtain ⟨after', rfl⟩ := (List.prefix_append_right_inj _).1 hus
          rw [hpart.arrived, hunread, List.append_nil, clientBytes_append] at hbytes
          have hu := (List.prefix_append_right_inj _).1 hbytes
          exact absurd ((List.prefix_append u.bytes _).trans hu) hpart.not_complete

/-- A request is read. -/
theorem ReadUpTo.request {before after : List ClientUnit} {s s' : Loop} {part rest : List UInt8}
    {r : WireRequest} {req : ParsedRequest} (h : ReadUpTo s before (.request r :: after) part)
    (hreq : r.parsed = .ok req) (hexit : req.method.exit = none)
    (hrest : part ++ s.unread = r.bytes ++ rest) (harrived : s'.arrived = s.arrived)
    (hunread : s'.unread = rest) (hreading : s'.reading = .requestLine []) :
    ReadUpTo s' (before ++ [.request r]) after [] where
  readable := by
    intro u hu
    refine h.readable u ?_
    have hends : (ClientUnit.request r).ends = false := by simp [ClientUnit.ends, hreq, hexit]
    rw [served, hends]
    exact List.mem_cons_of_mem _ hu
  arrived := by
    rw [harrived, h.arrived, hrest, hunread, clientBytes_append, List.append_assoc]
    simp [clientBytes, ClientUnit.bytes]
  goes := by
    rw [hreading]
    exact Goes.refl _

theorem inv_poll {units : List ClientUnit} {s : Loop} {d : Delivery} (hI : Inv units s)
    (hd : s.conn.phase = .delivering d) (harr : s.arrived <+: clientBytes units) (env : Env) :
    Inv units (s.poll d env) := by
  obtain ⟨before, after, rfl, hanswered, hread⟩ := hI
  obtain ⟨part, hpart⟩ := hread d hd
  rcases hpart.poll harr with ⟨r, hgoes, hpoll⟩ | ⟨r, req, rest, after, rfl, hreq, hrest, hpoll⟩
  · refine ⟨before, after, rfl, ?_⟩
    rw [Loop.poll, hpoll]
    dsimp only
    split
    · refine ⟨hanswered, fun d' hd' => ?_⟩
      cases (deliver_atEof s.conn d r).symm.trans hd'
    · refine ⟨hanswered, fun _ _ => ⟨part ++ s.unread, hpart.readable, ?_, hgoes⟩⟩
      rw [List.append_nil]
      exact hpart.arrived
  · refine ⟨before ++ [.request r], after, by simp, ?_⟩
    rw [Loop.poll, hpoll]
    dsimp only
    refine ⟨?_, fun d' hd' => ⟨[], ?_⟩⟩
    · rw [List.map_append, hanswered, clientRequests_append]
      simp [clientRequests, ClientUnit.request?, hreq]
    · obtain ⟨hexit, -⟩ | ⟨-, hclosed⟩ := readDelivering_phase s.conn d req env
      · exact hpart.request hreq hexit hrest rfl rfl rfl
      · cases hclosed.symm.trans hd'

theorem inv_step {units : List ClientUnit} {s s' : Loop} {e : LoopEvent} (hI : Inv units s)
    (harr : s.arrived <+: clientBytes units)
    (hund : ∀ ev, e = .turn ev → s'.conn.phase ≠ .closed → s.reading = .requestLine [])
    (h : loopStep s e = some s') : Inv units s' := by
  obtain ⟨piece, rfl, rfl⟩ | ⟨rfl, rfl⟩ | ⟨env, d, rfl, hd, rfl⟩ | ⟨ev, d, rfl, hd, hev, rfl⟩ :=
    loopStep_cases h
  · obtain ⟨before, after, heq, hanswered, hread⟩ := hI
    refine ⟨before, after, heq, hanswered, fun d hd => ?_⟩
    obtain ⟨part, hpart⟩ := hread d hd
    refine ⟨part, hpart.readable, ?_, hpart.goes⟩
    dsimp only
    rw [hpart.arrived, List.append_assoc, List.append_assoc]
  · obtain ⟨before, after, heq, hanswered, hread⟩ := hI
    refine ⟨before, after, heq, hanswered, fun d hd => ?_⟩
    obtain ⟨part, hpart⟩ := hread d hd
    exact ⟨part, hpart.readable, hpart.arrived, hpart.goes⟩
  · exact inv_poll hI hd harr env
  · obtain ⟨before, after, heq, hanswered, hread⟩ := hI
    refine ⟨before, after, heq, hanswered, fun d' hd' => ?_⟩
    obtain ⟨part, hpart⟩ := hread d hd
    -- the branch drops the call that reads, which had read nothing
    have hreading := hund ev rfl (by rw [hd']; nofun)
    refine ⟨part, hpart.readable, hpart.arrived, ?_⟩
    have hgoes := hpart.goes
    rwa [hreading] at hgoes

theorem arrived_step {s s' : Loop} {e : LoopEvent} (h : loopStep s e = some s') :
    s'.arrived = s.arrived ++ arrivals [e] := by
  obtain ⟨piece, rfl, rfl⟩ | ⟨rfl, rfl⟩ | ⟨env, d, rfl, -, rfl⟩ | ⟨ev, d, rfl, -, -, rfl⟩ :=
    loopStep_cases h
  · simp [arrivals]
  · simp [arrivals]
  · have hnone : arrivals [.poll env] = [] := rfl
    rw [hnone, List.append_nil]
    obtain ⟨r, rest, -, ⟨-, hs⟩ | ⟨-, hs⟩⟩ | ⟨req, rest, -, hs⟩ | ⟨msg, rest, -, hs⟩ :=
      poll_cases s d env
    all_goals rw [hs]
    all_goals rfl
  · simp [arrivals, Loop.turn]

/-- What has arrived is what the events have brought. -/
theorem arrived_exec {es : List LoopEvent} {s t : Loop} (h : exec loopStep s es = some t) :
    t.arrived = s.arrived ++ arrivals es := by
  induction es generalizing s with
  | nil =>
      cases h
      simp [arrivals]
  | cons e es ih =>
      rw [exec_cons] at h
      obtain ⟨u, hu, h⟩ := Option.bind_eq_some_iff.1 h
      rw [ih h, arrived_step hu, List.append_assoc, arrivals, arrivals, arrivals,
        ← List.flatMap_append, List.singleton_append]

/-- The read of a readable stream does not fail. -/
theorem Inv.loopExit_ne {units : List ClientUnit} {s s' : Loop} {e : LoopEvent} (hI : Inv units s)
    (harr : s.arrived <+: clientBytes units) (h : loopStep s e = some s') :
    loopExit s e ≠ some .readError := by
  obtain ⟨piece, rfl, -⟩ | ⟨rfl, -⟩ | ⟨env, d, rfl, hd, -⟩ | ⟨ev, d, rfl, hd, -, -⟩ :=
    loopStep_cases h
  · simp [loopExit]
  · simp [loopExit]
  · obtain ⟨before, after, rfl, -, hread⟩ := hI
    obtain ⟨part, hpart⟩ := hread d hd
    simp only [loopExit, hd]
    rcases hpart.poll harr with ⟨r, -, hpoll⟩ | ⟨r, req, rest, after, rfl, -, -, hpoll⟩
    · rw [hpoll]
      dsimp only
      split <;> nofun
    · rw [hpoll]
      dsimp only
      cases req.method <;> nofun
  · simp only [loopExit, hd, turnExit]
    split
    · nofun
    · split
      · split <;> nofun
      · nofun
    · split
      · nofun
      · split <;> nofun
    · nofun

/-- **Requests survive when no other branch is taken while one of them is half read**, and all that
the client sends before the request that ends the loop is requests that can be read. -/
theorem requests_survive {conn : Conn} {units : List ClientUnit} {es : List LoopEvent}
    (harr : arrivals es <+: clientBytes units) (hread : ∀ u ∈ served units, u.Readable)
    (hund : Undisturbed conn es) : RequestsSurvive conn units es := by
  have hpre : ∀ s, Passes loopStep (.start conn) es s → s.arrived <+: clientBytes units := by
    rintro s ⟨pre, ⟨post, rfl⟩, hs⟩
    rw [arrived_exec hs]
    refine List.IsPrefix.trans ?_ harr
    rw [arrivals, arrivals, List.flatMap_append]
    exact List.prefix_append _ _
  have hinv : ∀ s, Passes loopStep (.start conn) es s → Inv units s := by
    intro s hs
    refine passes_induction (I := Inv units) ?_ ?_ hs
    · intro u e v ho hI hv
      refine inv_step hI (hpre u ho.passes_before) ?_ hv
      rintro ev rfl hphase
      exact hund u ev v ho hv hphase
    · exact ⟨[], units, rfl, rfl, fun _ _ => ⟨[], hread, rfl, Goes.refl _⟩⟩
  refine ⟨fun s hs => (hinv s hs).survives, ?_⟩
  intro s e s' d ho hd hs hclosed
  have hp := ho.passes_before
  obtain ⟨x, hx⟩ := Option.ne_none_iff_exists'.1 ((closed_iff_loopExit hd hs).1 hclosed)
  refine ⟨x, hx, ?_⟩
  rintro rfl
  exact (hinv s hp).loopExit_ne (hpre s hp) hs hx

/-! ### Requests that are lost -/

theorem inLine_camRequest : InLine "RTSP/1.0" ∧ InLine "rtsp://eye/cam" ∧
    ' ' ∉ "rtsp://eye/cam".toList := by
  decide

theorem cseq_ok : ([] : List UInt8).length = contentLength [("CSeq", "4")] ∧
    ∀ h ∈ [("CSeq", "4")],
      (InLine h.1 ∧ ':' ∉ h.1.toList ∧ Text.trim h.1.toList = h.1.toList) ∧
      InLine h.2 ∧ Text.trim h.2.toList = h.2.toList := by
  decide

/-- A request without a body. -/
def camRequest (method : String) (hm : InLine method ∧ ' ' ∉ method.toList) : WireRequest where
  method := method
  uri := "rtsp://eye/cam"
  version := "RTSP/1.0"
  headers := [("CSeq", "4")]
  body := []
  method_ok := hm
  uri_ok := inLine_camRequest.2
  version_ok := inLine_camRequest.1
  headers_ok := cseq_ok.2
  body_ok := cseq_ok.1

theorem readable_camRequest {name : String} (method : RtspMethod)
    (hm : InLine name ∧ ' ' ∉ name.toList) (h : RtspMethod.fromStr name = .ok method) :
    (ClientUnit.request (camRequest name hm)).Readable := by
  refine ⟨parsedRequest method "rtsp://eye/cam" [("CSeq", "4")] [], ?_⟩
  show (RtspMethod.fromStr name).map _ = _
  rw [h]
  rfl

theorem inLine_options : InLine "OPTIONS" ∧ ' ' ∉ "OPTIONS".toList := by decide

theorem inLine_teardown : InLine "TEARDOWN" ∧ ' ' ∉ "TEARDOWN".toList := by decide

/-- `OPTIONS` as it travels. -/
def optionsRequest : WireRequest := camRequest "OPTIONS" inLine_options

/-- `TEARDOWN` as it travels. -/
def teardownRequest : WireRequest := camRequest "TEARDOWN" inLine_teardown

/-- A stream is being delivered. -/
def camDelivery : Conn where
  nonce := "6f1ed002ab5595859014ebf0951522d9"
  session := .playing "0123456789abcdef" {} "cam" 1
  phase := .delivering
    { request := playCam, interleaveChannel := 0, rtcpChannel := 1, ssrc := 1, lastActivity := 0 }

/-- `OPTIONS` in two pieces, a packet of the stream, and `TEARDOWN`. -/
def politeRun : List LoopEvent :=
  [.arrive (optionsRequest.bytes.take 7), .poll oneStream,
    .arrive (optionsRequest.bytes.drop 7), .poll oneStream,
    .turn (.frame [0x80] 1 true), .arrive teardownRequest.bytes, .poll oneStream]

theorem requestsSurvive_politeRun :
    RequestsSurvive camDelivery [.request optionsRequest, .request teardownRequest] politeRun := by
  refine requests_survive ⟨[], by decide⟩ ?_ ?_
  · intro u hu
    have hunits := mem_of_mem_served hu
    simp only [List.mem_cons, List.not_mem_nil, or_false] at hunits
    rcases hunits with rfl | rfl
    · exact readable_camRequest .options _ (by simp [RtspMethod.fromStr])
    · exact readable_camRequest .teardown _ (by simp [RtspMethod.fromStr])
  · intro s e s' ho _ _
    have hfour : (exec loopStep (.start camDelivery) (politeRun.take 4)).map Loop.reading =
        some (.requestLine []) := by
      decide +kernel
    obtain ⟨i, hi, hs⟩ := ho.exists_getElem
    obtain rfl : i = 4 := by
      match i with
      | 0 | 1 | 2 | 3 | 5 | 6 => cases hi
      | 4 => rfl
      | i + 7 => simp [politeRun] at hi
    rw [hs] at hfour
    exact Option.some.inj hfour

/-- The packet comes between the two pieces. -/
def splitRun : List LoopEvent :=
  [.arrive (optionsRequest.bytes.take 7), .poll oneStream, .turn (.frame [0x80] 1 true),
    .arrive (optionsRequest.bytes.drop 7)]

/-- A receiver report of the client. -/
def receiverReport : List UInt8 := [0x80, 201, 0, 1, 0, 0, 0, 1]

theorem length_receiverReport_le : receiverReport.length ≤ 65535 := by decide

/-- The report in its frame, and `OPTIONS`. -/
def reportUnits : List ClientUnit :=
  [.frame 1 receiverReport length_receiverReport_le, .request optionsRequest]

/-- A run does not survive a poll that fails. -/
theorem not_requestsSurvive_of_exit {conn : Conn} {units : List ClientUnit} {es : List LoopEvent}
    {env : Env} (h : (exec loopStep (.start conn) es).any (fun s =>
      loopExit s (.poll env) = some .readError) = true) :
    ¬ RequestsSurvive conn units (es ++ [.poll env]) := by
  obtain ⟨s, hs, h⟩ := (Option.any_eq_true ..).1 h
  have hexit : loopExit s (.poll env) = some .readError := of_decide_eq_true h
  cases hd : s.conn.phase with
  | reading => simp [loopExit, hd] at hexit
  | closed => simp [loopExit, hd] at hexit
  | delivering d =>
      have hstep : loopStep s (.poll env) = some (s.poll d env) := by simp [loopStep, hd]
      have hclosed := (closed_iff_loopExit hd hstep).2 (by rw [hexit]; nofun)
      intro hsurvive
      obtain ⟨x, hx, hne⟩ :=
        hsurvive.2 s (.poll env) _ d ⟨es, List.prefix_refl _, hs⟩ hd hstep hclosed
      exact hne (Option.some.inj (hx.symm.trans hexit))

/-- Requests are lost: one of which a part was read when a packet was sent, and one after a receiver
report of the client. -/
theorem not_requestsSurvive_splitRun_reportUnits :
    (arrivals (splitRun ++ [.poll oneStream]) <+: clientBytes [.request optionsRequest] ∧
      ¬ RequestsSurvive camDelivery [.request optionsRequest] (splitRun ++ [.poll oneStream])) ∧
    arrivals ([.arrive (clientBytes reportUnits)] ++ [.poll oneStream]) <+:
      clientBytes reportUnits ∧
    ¬ RequestsSurvive camDelivery reportUnits
      ([.arrive (clientBytes reportUnits)] ++ [.poll oneStream]) := by
  refine ⟨⟨⟨[], by decide +kernel⟩, not_requestsSurvive_of_exit (by decide +kernel)⟩,
    ⟨[], by decide⟩, not_requestsSurvive_of_exit (by decide)⟩

end RtspServer
