/-
**The monitor of plugged cameras.**

`crates/capture/src/hotplug.rs`: the kernel reports devices in datagrams.  Once the socket is readable the
monitor drains it: it receives until nothing is left and collects the events of the datagrams, and
sends them when the drain ends.  A drain also ends with an error, or after a number of empty
datagrams in a row; an error is all that it returns then.

Main definitions:

* `Hotplug.parseUevent` — the event of a datagram;
* `Hotplug.drainTurn` — one turn of the loop that drains the socket;
* `Hotplug.Monitor.turn` — what the monitor makes of what is received next;
* `Hotplug.Delivered` — at every time what is sent and what is being collected are the events of all
  datagrams.

Main results:

* `Hotplug.turn_cases` — what one turn does with the events;
* `Hotplug.delivered_iff` — **no event is lost exactly where no error ends a drain that has collected
  some**.
-/

import Mathlib.Data.List.Induction
import MibeeEye.FixedWidth
import MibeeEye.Text
import MibeeEye.Utf8

set_option relaxedAutoImplicit false
set_option autoImplicit false

namespace Hotplug

open Text Wire

/-! ### Datagrams -/

/-- `HotplugEvent` -/
inductive HotplugEvent
  | added (deviceIndex : ℕ) (name : String)
  | removed (deviceIndex : ℕ)
  deriving DecidableEq, Repr

/-- The values that are looked for in a datagram. -/
structure Fields where
  action : Option (List Char) := none
  subsystem : Option (List Char) := none
  devname : Option (List Char) := none
  deriving DecidableEq

/-- One segment of a datagram: a later value replaces an earlier one. -/
def Fields.read (f : Fields) (seg : List Char) : Fields :=
  match splitOnce (· == '=') seg with
  | none => f
  | some (key, val) =>
    if key = "ACTION".toList then { f with action := some val }
    else if key = "SUBSYSTEM".toList then { f with subsystem := some val }
    else if key = "DEVNAME".toList then { f with devname := some val }
    else f

/-- The segments of a datagram between zero bytes, without empty ones and what is no UTF-8. -/
def segments (data : List UInt8) : List (List Char) :=
  ((data.splitOn 0).filter fun s => !s.isEmpty).filterMap fun s => (fromUtf8 s).map String.toList

/-- The name that a segment gives. -/
def modelName (seg : List Char) : Option (List Char) :=
  seg.dropPrefix? "ID_MODEL_FROM_DATABASE=".toList <|> seg.dropPrefix? "ID_MODEL=".toList

/-- **`parse_uevent`**: the event of a datagram. -/
def parseUevent (data : List UInt8) : Option HotplugEvent := do
  let segs := segments data
  guard (segs ≠ [])
  let f := segs.foldl Fields.read {}
  guard (f.subsystem = some "video4linux".toList)
  let action ← f.action
  let devname ← f.devname
  let digits ← devname.dropPrefix? "video".toList
  let deviceIndex ← parseUnsigned 10 (2 ^ 32) digits
  let name := ((segs.findSome? modelName).map String.ofList).getD s!"Video Device {deviceIndex}"
  if action = "add".toList then some (.added deviceIndex name)
  else if action = "remove".toList then some (.removed deviceIndex)
  else none

/-! ### Draining the socket -/

/-- `RECV_BUF_SIZE` -/
def recvBufSize : ℕ := 16 * 1024

/-- `EMPTY_DGRAM_LIMIT` -/
def emptyDgramLimit : ℕ := 16

/-- The kind of an error. -/
inductive ErrorKind
  | wouldBlock
  | other (errno : ℕ)
  deriving DecidableEq

/-- What `recv` gives: bytes, as many as the buffer has at most, or an error. -/
inductive RecvResult
  | datagram (data : List UInt8) (size : data.length ≤ recvBufSize)
  | error (kind : ErrorKind)
  deriving DecidableEq

/-- The variables of the loop of `drain_events`. -/
structure Drain where
  events : List HotplugEvent := []
  empty : ℕ := 0
  deriving DecidableEq

/-- What a turn of the loop comes to: another one, or what `drain_events` returns. -/
inductive Turn
  | again (d : Drain)
  | returns (result : Except ErrorKind (List HotplugEvent))

/-- **One turn of the loop of `drain_events`**. -/
def drainTurn (d : Drain) : RecvResult → Turn
  | .error .wouldBlock => .returns (.ok d.events)
  | .error kind => .returns (.error kind)
  | .datagram data _ =>
    if data.isEmpty then
      if emptyDgramLimit ≤ d.empty + 1 then .returns (.ok d.events)
      else .again { d with empty := d.empty + 1 }
    else .again ⟨d.events ++ (parseUevent data).toList, 0⟩

/-- The monitor in its `run`: the drain it is in, how often in a row nothing was drained, and what it has
sent. -/
structure Monitor where
  drain : Drain := {}
  spurious : ℕ := 0
  sent : List HotplugEvent := []

/-- `run`, after a drain: the events are sent, and after three drains without any it sleeps. -/
def Monitor.dispatch (m : Monitor) (events : List HotplugEvent) : Monitor :=
  let spurious := FixedWidth.saturated 32 (m.spurious + 1)
  { drain := {}
    spurious := if events.isEmpty then (if 3 ≤ spurious then 0 else spurious) else 0
    sent := m.sent ++ events }

/-- **`HotplugMonitor::run`**, with what is received next, while the receiver of the events is alive. -/
def Monitor.turn (m : Monitor) (r : RecvResult) : Monitor :=
  match drainTurn m.drain r with
  | .again d => { m with drain := d }
  | .returns (.ok events) => m.dispatch events
  | .returns (.error _) => m.dispatch []

/-- The monitor after what was received. -/
def run (rs : List RecvResult) : Monitor := rs.foldl Monitor.turn {}

/-! ### What is delivered -/

/-- The event of what is received. -/
def eventOf : RecvResult → Option HotplugEvent
  | .datagram data _ => parseUevent data
  | .error _ => none

/-- The events of all datagrams, in order of receipt. -/
def expected (rs : List RecvResult) : List HotplugEvent := rs.filterMap eventOf

/-- A result that ends a drain in which `empty` empty datagrams were received last. -/
def endsDrain (empty : ℕ) : RecvResult → Bool
  | .error _ => true
  | .datagram data _ => data.isEmpty && decide (emptyDgramLimit ≤ empty + 1)

/-- At every time, what is sent and what the drain has collected are the events of all datagrams; and
when a drain ends, all of them are sent. -/
def Delivered (rs : List RecvResult) : Prop :=
  ∀ pre, pre <+: rs →
    (run pre).sent ++ (run pre).drain.events = expected pre ∧
    ∀ r, pre ++ [r] <+: rs → endsDrain (run pre).drain.empty r = true →
      (run (pre ++ [r])).sent = expected (pre ++ [r])

/-! ### One turn -/

variable {m : Monitor} {r : RecvResult}

/-- An empty datagram has no event. -/
theorem parseUevent_nil : parseUevent [] = none := rfl

/-- What a turn does: the drain collects the event of what is received; or it ends, and what it has
collected is sent; or an error ends it, and nothing is sent. -/
theorem turn_cases (m : Monitor) (r : RecvResult) :
    (endsDrain m.drain.empty r = false ∧ (m.turn r).sent = m.sent ∧
      (m.turn r).drain.events = m.drain.events ++ (eventOf r).toList) ∨
    (endsDrain m.drain.empty r = true ∧ eventOf r = none ∧ (m.turn r).drain.events = [] ∧
      ((m.turn r).sent = m.sent ++ m.drain.events ∨
        (m.turn r).sent = m.sent ∧ ∃ errno, r = .error (.other errno))) := by
  cases r with
  | error kind =>
      cases kind with
      | wouldBlock => exact .inr ⟨rfl, rfl, rfl, .inl rfl⟩
      | other errno => exact .inr ⟨rfl, rfl, rfl, .inr ⟨List.append_nil _, errno, rfl⟩⟩
  | datagram data size =>
      cases data with
      | cons b data => exact .inl ⟨rfl, rfl, rfl⟩
      | nil =>
          by_cases hlimit : emptyDgramLimit ≤ m.drain.empty + 1
          · have hturn : m.turn (.datagram [] size) = m.dispatch m.drain.events := by
              rw [Monitor.turn, show drainTurn m.drain (.datagram [] size) = .returns (.ok m.drain.events)
                from if_pos hlimit]
            rw [hturn]
            exact .inr ⟨decide_eq_true hlimit, rfl, rfl, .inl rfl⟩
          · have hturn : m.turn (.datagram [] size) =
                { m with drain := { m.drain with empty := m.drain.empty + 1 } } := by
              rw [Monitor.turn, show drainTurn m.drain (.datagram [] size) =
                .again { m.drain with empty := m.drain.empty + 1 } from if_neg hlimit]
            rw [hturn]
            exact .inl ⟨decide_eq_false hlimit, rfl, (List.append_nil _).symm⟩

/-- A turn with an error other than that nothing is left sends nothing. -/
theorem sent_turn_error (m : Monitor) (errno : ℕ) :
    (m.turn (.error (.other errno))).sent = m.sent := List.append_nil _

/-! ### Runs -/

theorem run_concat (pre : List RecvResult) (r : RecvResult) : run (pre ++ [r]) = (run pre).turn r := by
  rw [run, List.foldl_append]
  rfl

theorem expected_concat (pre : List RecvResult) (r : RecvResult) :
    expected (pre ++ [r]) = expected pre ++ (eventOf r).toList := by
  rw [expected, List.filterMap_append]
  cases h : eventOf r <;> simp [expected, h]

/-- No error ends a drain that has collected events. -/
def ErrorsFindNothing (rs : List RecvResult) : Prop :=
  ∀ pre errno, pre ++ [.error (.other errno)] <+: rs → (run pre).drain.events = []

/-- What a turn keeps: nothing is lost, where no error finds events. -/
theorem delivered_turn {pre : List RecvResult} {r : RecvResult}
    (hkept : (run pre).sent ++ (run pre).drain.events = expected pre)
    (herror : ∀ errno, r = .error (.other errno) → (run pre).drain.events = []) :
    (run (pre ++ [r])).sent ++ (run (pre ++ [r])).drain.events = expected (pre ++ [r]) ∧
    (endsDrain (run pre).drain.empty r = true →
      (run (pre ++ [r])).sent = expected (pre ++ [r])) := by
  rw [run_concat, expected_concat, ← hkept]
  obtain ⟨hends, hsent, hevents⟩ | ⟨-, hnone, hevents, hsent | ⟨hsent, errno, herr⟩⟩ :=
    turn_cases (run pre) r
  · rw [hsent, hevents, hends, List.append_assoc]
    exact ⟨rfl, fun h => absurd h Bool.false_ne_true⟩
  · rw [hsent, hevents, hnone]
    simp
  · rw [hsent, hevents, hnone, herror errno herr]
    simp

/-- Where events are lost, an error has found some. -/
theorem Delivered.errorsFindNothing {rs : List RecvResult} (h : Delivered rs) :
    ErrorsFindNothing rs := by
  intro pre errno hpre
  have hprefix : pre <+: rs := (List.prefix_append _ _).trans hpre
  have hbefore := (h pre hprefix).1
  have hafter := (h pre hprefix).2 _ hpre rfl
  rw [run_concat, sent_turn_error, expected_concat, ← hbefore] at hafter
  simpa [eventOf] using hafter

/-- At every time what is sent and what is being collected are the events of all datagrams, and all of them
are sent when a drain ends, exactly where no error ends a drain that has collected events. -/
theorem delivered_iff (rs : List RecvResult) : Delivered rs ↔ ErrorsFindNothing rs := by
  refine ⟨Delivered.errorsFindNothing, fun herrors pre hpre => ?_⟩
  have hkept : (run pre).sent ++ (run pre).drain.events = expected pre := by
    induction pre using List.reverseRecOn with
    | nil => rfl
    | append_singleton pre r ih =>
        exact (delivered_turn (ih ((List.prefix_append _ _).trans hpre))
          fun errno hr => herrors pre errno (hr ▸ hpre)).1
  exact ⟨hkept, fun r hr => (delivered_turn hkept fun errno h => herrors pre errno (h ▸ hr)).2⟩

/-- The camera `video0` is unplugged. -/
def unplugged : List UInt8 :=
  asBytes "ACTION=remove" ++ [0] ++ asBytes "SUBSYSTEM=video4linux" ++ [0] ++ asBytes "DEVNAME=video0"

example : parseUevent unplugged = some (.removed 0) := by decide

/-- A camera is unplugged, and then the buffer of the socket is overrun. -/
theorem not_delivered_overrun :
    ¬ Delivered [.datagram unplugged (by decide), .error (.other 105)] := by
  intro h
  have hlost := h.errorsFindNothing [.datagram unplugged (by decide)] 105 (List.prefix_refl _)
  exact absurd hlost (by decide)

end Hotplug
