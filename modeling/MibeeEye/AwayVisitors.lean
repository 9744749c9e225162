/-
**Visitors of an armed device.**

For every visitor `src/away_monitor.rs` stores a record and starts a task that greets, opens the one
listening window of the engine, and moves the record to `listening`.  A second task, the reaper, closes
the window when nobody has answered: the record becomes `silent`, or the visitor is asked once more on
a window of half the length.  The watch task attributes what it hears to the window that is open, and
stores the reply.  All of them are interleaved at their awaits, with arming and disarming: the model is
a step machine with a step for each part of a task between its awaits; a write to the database and what
its task does after it, up to the next await, are one step.

A record is attributed once, because the window for it is in one place only: not yet opened, open, in
the hands of a reaper, or answered.

Main definitions:

* `Visitors.RecordState`, `Visitors.Flow`, `Visitors.Monitor`, `Visitors.monitorStep` — records, tasks,
  and what they share;
* `Visitors.StaysAnswered` — what is to hold in every state;
* `Visitors.Place`, `Visitors.Has` — where the window for a record is;
* `Visitors.ReplyInOrder` — the steps at which a reply does not overtake its record.

Main results:

* `Visitors.unique_move` — **the window for a record is in one place**;
* `Visitors.inv_monitorStep` — the invariant is kept by every such step;
* `Visitors.staysAnswered_passes` — **an answered visitor stays answered** in a run of such steps.
-/

import MibeeEye.AwayEngine

set_option relaxedAutoImplicit false
set_option autoImplicit false

namespace Visitors

open Machine

/-! ### Records and tasks -/

/-- The `state` of a record. -/
inductive RecordState
  | greeting
  | known
  | noVoice
  | listening
  | reask
  | silent
  | answered
  deriving DecidableEq, Repr

/-- A record: its state, and the transcripts that were stored as its reply. -/
structure Record where
  state : RecordState := .greeting
  replies : List ℕ := []
  deriving DecidableEq, Repr

/-- The tasks of a visitor, one after the other. -/
inductive Flow
  | unused
  /-- There is no task, or the greeting ended without a window. -/
  | ended
  /-- The greeting is spoken. -/
  | greeting (known : Bool)
  /-- No window: the write of `no_voice` is outstanding. -/
  | refusing
  /-- The window is open: the write of `listening` is outstanding. -/
  | opening (deadlineMs : ℕ)
  /-- The reaper sleeps. -/
  | sleeping (deadlineMs : ℕ)
  /-- The reaper has taken a window: the write of `reask` is outstanding. -/
  | reasking (eventId : ℕ)
  /-- The question is spoken again. -/
  | speaking (eventId : ℕ)
  /-- The window was opened again, and the reaper sleeps. -/
  | sleepingAgain (eventId deadlineMs : ℕ)
  /-- The write of `silent` is outstanding, the last thing the reaper does to the record. -/
  | settling (eventId : ℕ)
  /-- The reaper has finished. -/
  | finished
  deriving DecidableEq, Repr

/-- The greeting task has opened the window, and the write of `listening` is outstanding. -/
def Flow.isOpening : Flow → Bool
  | opening _ => true
  | _ => false

/-- The engine, the clock, the records with their tasks, and the watch task, which stores one reply at
a time.  The transcripts are numbered as they are heard; beside them stands to which record each was
attributed. -/
structure Monitor where
  engine : Away.Engine := {}
  nowMs : ℕ := 0
  next : ℕ := 0
  records : ℕ → Record := fun _ => {}
  flows : ℕ → Flow := fun _ => .unused
  /-- The record and the transcript of the reply whose write is outstanding. -/
  replying : Option (ℕ × ℕ) := none
  heard : ℕ := 0
  attributed : List (ℕ × ℕ) := []

/-- What can happen. -/
inductive MonitorEvent
  | tick (nowMs : ℕ)
  | arm
  | disarm
  /-- A visitor is seen: is there a voice, and is the face known? -/
  | visitor (voice known : Bool)
  /-- The greeting of visitor `n` is over: was it spoken, and does `arm_listen` succeed? -/
  | greeted (n : ℕ) (spoken armListen : Bool)
  /-- The write that is outstanding for the tasks of visitor `n` is done. -/
  | lands (n : ℕ)
  /-- The reaper of visitor `n` wakes up. -/
  | wakes (n : ℕ) (deterrence : Bool)
  /-- The question was spoken again. -/
  | reopens (n : ℕ) (armListen : Bool)
  /-- Something is heard in a window without a wake word. -/
  | transcript
  /-- The reply is stored. -/
  | replyLands
  deriving DecidableEq, Repr

/-- `LISTEN_GRACE_MS` -/
def listenGraceMs : ℕ := 5000

namespace Monitor

def setFlow (s : Monitor) (n : ℕ) (flow : Flow) : Monitor :=
  { s with flows := Function.update s.flows n flow }

/-- `update_away_state` -/
def updateState (s : Monitor) (id : ℕ) (state : RecordState) : Monitor :=
  { s with records := Function.update s.records id { s.records id with state } }

/-- `update_away_reply` -/
def updateReply (s : Monitor) (id transcript : ℕ) : Monitor :=
  let record : Record := { state := .answered, replies := (s.records id).replies ++ [transcript] }
  { s with records := Function.update s.records id record }

/-- A window is opened for `id`, if it can be, for `windowMs`: the flow that goes on with it, and that
which goes on without. -/
def openWindow (s : Monitor) (n id : ℕ) (armListen : Bool) (windowMs : ℕ) (opened : ℕ → Flow)
    (refused : Flow) : Monitor :=
  let deadline := s.nowMs + windowMs + listenGraceMs
  if armListen = true ∧ (s.engine.openListen id deadline).1 = true then
    { s with engine := (s.engine.openListen id deadline).2 }.setFlow n (opened deadline)
  else s.setFlow n refused

/-- The reaper takes the window that has expired, if there is one. -/
def reap (s : Monitor) (n : ℕ) (taken : ℕ → Flow) : Monitor :=
  let flow := match (s.engine.expireListen s.nowMs).1 with
    | some id => taken id
    | none => .finished
  { s with engine := (s.engine.expireListen s.nowMs).2 }.setFlow n flow

end Monitor

/-- One step; `listenMs` is how long a window is.  A reaper wakes up three seconds after the deadline of
its window at the earliest. -/
@[grind =] def monitorStep (listenMs : ℕ) (s : Monitor) : MonitorEvent → Option Monitor
  | .tick nowMs => if s.nowMs ≤ nowMs then some { s with nowMs } else none
  | .arm => some { s with engine := s.engine.arm s.nowMs }
  | .disarm => some { s with engine := s.engine.disarm }
  | .visitor voice known =>
      if s.replying = none then
        let state : RecordState := if !voice then .noVoice else if known then .known else .greeting
        let flow : Flow := if voice then .greeting known else .ended
        some { s with
          next := s.next + 1
          records := Function.update s.records s.next { state }
          flows := Function.update s.flows s.next flow }
      else none
  | .greeted n spoken armListen =>
      match s.flows n with
      | .greeting known =>
          if spoken then
            if known then some (s.setFlow n .ended)
            else some (s.openWindow n n armListen listenMs .opening .refusing)
          else some (s.setFlow n (if known then .ended else .refusing))
      | _ => none
  | .lands n =>
      match s.flows n with
      | .refusing => some ((s.updateState n .noVoice).setFlow n .ended)
      | .opening deadline => some ((s.updateState n .listening).setFlow n (.sleeping deadline))
      | .reasking id => some ((s.updateState id .reask).setFlow n (.speaking id))
      | .settling id => some ((s.updateState id .silent).setFlow n .finished)
      | _ => none
  | .wakes n deterrence =>
      match s.flows n with
      | .sleeping deadline =>
          if deadline + 3000 ≤ s.nowMs then
            some (s.reap n fun id => if deterrence then .reasking id else .settling id)
          else none
      | .sleepingAgain _ deadline =>
          if deadline + 3000 ≤ s.nowMs then some (s.reap n .settling) else none
      | _ => none
  | .reopens n armListen =>
      match s.flows n with
      | .speaking id =>
          some (s.openWindow n id armListen (max (listenMs / 2) 4000) (.sleepingAgain id)
            (.settling id))
      | _ => none
  | .transcript =>
      if s.replying = none ∧ s.engine.armed = true then
        some { s with
          engine := (s.engine.attributeListen s.nowMs).2
          replying := (s.engine.attributeListen s.nowMs).1.map fun id => (id, s.heard)
          heard := s.heard + 1
          attributed := ((s.engine.attributeListen s.nowMs).1.map fun id => (s.heard, id)).toList
            ++ s.attributed }
      else none
  | .replyLands =>
      match s.replying with
      | some (id, transcript) => some { s.updateReply id transcript with replying := none }
      | none => none

/-! ### What is to hold -/

/-- **An answered visitor stays answered**: a record with a reply is `answered`, it has one reply, and a
transcript is attributed to one record. -/
structure StaysAnswered (s : Monitor) : Prop where
  answered : ∀ n, (s.records n).replies ≠ [] → (s.records n).state = .answered
  once : ∀ n, (s.records n).replies.length ≤ 1
  single : ∀ t n n', (t, n) ∈ s.attributed → (t, n') ∈ s.attributed → n = n'

/-- **The replies come in order**: one is not stored while the write of `listening` for its record is
outstanding. -/
def ReplyInOrder (s : Monitor) : MonitorEvent → Prop
  | .replyLands => ∀ p ∈ s.replying, (s.flows p.1).isOpening = false
  | .tick _ | .arm | .disarm | .visitor _ _ | .greeted _ _ _ | .lands _ | .wakes _ _ | .reopens _ _ |
    .transcript => True

instance (s : Monitor) : DecidablePred (ReplyInOrder s)
  | .replyLands => inferInstanceAs (Decidable (∀ p ∈ s.replying, (s.flows p.1).isOpening = false))
  | .tick _ | .arm | .disarm | .visitor _ _ | .greeted _ _ _ | .lands _ | .wakes _ _ | .reopens _ _ |
    .transcript => inferInstanceAs (Decidable True)

/-! ### Where the window for a record is -/

/-- Where the window for a record can be. -/
inductive Place
  /-- Not opened yet, or never. -/
  | own
  /-- Open. -/
  | slot
  /-- Taken by the reaper of visitor `m`. -/
  | reaper (m : ℕ)
  /-- Answered, and the reply is to be stored. -/
  | replying
  /-- The reply is stored. -/
  | replied
  deriving DecidableEq, Repr

/-- The task has not opened the window. -/
def Flow.isOwn : Flow → Bool
  | unused | ended | greeting _ | refusing => true
  | opening _ | sleeping _ | reasking _ | speaking _ | sleepingAgain _ _ | settling _ | finished => false

/-- The record whose window the reaper has taken. -/
def Flow.holds : Flow → Option ℕ
  | reasking eventId | speaking eventId | settling eventId => some eventId
  | unused | ended | greeting _ | refusing | opening _ | sleeping _ | sleepingAgain _ _ |
    finished => none

theorem Flow.holds_of_isOwn {flow : Flow} (h : flow.isOwn = true) : flow.holds = none := by
  cases flow <;> first | rfl | cases h

/-- The window for record `n` is in this place. -/
@[grind =] def Has (s : Monitor) (n : ℕ) : Place → Prop
  | .own => (s.flows n).isOwn = true
  | .slot => ∃ l ∈ s.engine.listen, l.eventId = n
  | .reaper m => (s.flows m).holds = some n
  | .replying => ∃ p ∈ s.replying, p.1 = n
  | .replied => (s.records n).replies ≠ []

/-- **The window for a record is in one place.** -/
def Unique (s : Monitor) : Prop := ∀ n p q, Has s n p → Has s n q → p = q

/-- It is dropped somewhere. -/
theorem unique_of_imp {s t : Monitor} (hs : Unique s) (h : ∀ n p, Has t n p → Has s n p) :
    Unique t := fun n p q hp hq => hs n p q (h n p hp) (h n q hq)

/-- **It is moved** from `p` to `q`. -/
theorem unique_move {s t : Monitor} {n : ℕ} {p q : Place} (hs : Unique s) (hp : Has s n p)
    (h : ∀ m r, Has t m r → (Has s m r ∧ (m = n → r ≠ p)) ∨ (m = n ∧ r = q)) : Unique t := by
  -- what is at `n` after the step can only be at `q`
  have hn : ∀ r, Has t n r → r = q := by
    intro r hr
    rcases h n r hr with ⟨hbefore, hne⟩ | ⟨-, heq⟩
    · exact absurd (hs n r p hbefore hp) (hne rfl)
    · exact heq
  intro m r r' hr hr'
  by_cases hm : m = n
  · subst hm
    rw [hn r hr, hn r' hr']
  · rcases h m r hr with ⟨hbefore, -⟩ | ⟨heq, -⟩
    · rcases h m r' hr' with ⟨hbefore', -⟩ | ⟨heq, -⟩
      · exact hs m r r' hbefore hbefore'
      · exact absurd heq hm
    · exact absurd heq hm

/-- Where windows are after the task of visitor `n` has gone on. -/
theorem has_update {s t : Monitor} {n : ℕ} {flow : Flow}
    (hflows : t.flows = Function.update s.flows n flow)
    (hreplies : ∀ m, (t.records m).replies = (s.records m).replies)
    (hreplying : t.replying = s.replying) {m : ℕ} {r : Place} (h : Has t m r) :
    (r = .own ∧ m = n ∧ flow.isOwn = true) ∨ (r = .reaper n ∧ flow.holds = some m) ∨
    (r = .slot ∧ ∃ l ∈ t.engine.listen, l.eventId = m) ∨
    (Has s m r ∧ r ≠ .slot ∧ r ≠ .reaper n ∧ (r = .own → m ≠ n)) := by
  cases r with
  | own =>
      rw [Has, hflows] at h
      by_cases hm : m = n
      · rw [hm, Function.update_self] at h
        exact .inl ⟨rfl, hm, h⟩
      · rw [Function.update_of_ne hm] at h
        exact .inr (.inr (.inr ⟨h, by simp, by simp, fun _ => hm⟩))
  | slot => exact .inr (.inr (.inl ⟨rfl, h⟩))
  | reaper k =>
      rw [Has, hflows] at h
      by_cases hk : k = n
      · rw [hk, Function.update_self] at h
        exact .inr (.inl ⟨by rw [hk], h⟩)
      · rw [Function.update_of_ne hk] at h
        exact .inr (.inr (.inr ⟨h, by simp, by simp [hk], by simp⟩))
  | replying =>
      rw [Has, hreplying] at h
      exact .inr (.inr (.inr ⟨h, by simp, by simp, by simp⟩))
  | replied =>
      rw [Has, hreplies m] at h
      exact .inr (.inr (.inr ⟨h, by simp, by simp, by simp⟩))

section Moves

variable {s t : Monitor} {n : ℕ} {flow : Flow} (hs : Unique s)
  (hflows : t.flows = Function.update s.flows n flow)
  (hreplies : ∀ m, (t.records m).replies = (s.records m).replies)
  (hreplying : t.replying = s.replying)

include hs hflows hreplies hreplying

/-- The task goes on, and holds what it held, or less. -/
theorem unique_keeps (hown : flow.isOwn = true → (s.flows n).isOwn = true)
    (hholds : ∀ id, flow.holds = some id → (s.flows n).holds = some id)
    (hlisten : ∀ l ∈ t.engine.listen, l ∈ s.engine.listen) : Unique t := by
  refine unique_of_imp hs fun m r hat => ?_
  rcases has_update hflows hreplies hreplying hat with ⟨rfl, rfl, h⟩ | ⟨rfl, h⟩ | ⟨rfl, l, hl, h⟩ |
    ⟨h, -⟩
  · exact hown h
  · exact hholds m h
  · exact ⟨l, hlisten l hl, h⟩
  · exact h

/-- The task of visitor `n` opens the window for `id`, which was not opened or in its hands. -/
theorem unique_opens {id deadline : ℕ} (hown : flow.isOwn = false) (hholds : flow.holds = none)
    (hbefore : ((s.flows n).isOwn = true ∧ id = n) ∨ (s.flows n).holds = some id)
    (hlisten : t.engine.listen = some ⟨id, deadline⟩) : Unique t := by
  obtain ⟨p, hp, hpn⟩ : ∃ p, Has s id p ∧ (p = .reaper n ∨ (p = .own ∧ id = n)) := by
    rcases hbefore with ⟨h, rfl⟩ | h
    · exact ⟨.own, h, .inr ⟨rfl, rfl⟩⟩
    · exact ⟨.reaper n, h, .inl rfl⟩
  refine unique_move (q := .slot) hs hp fun m r hat => ?_
  rcases has_update hflows hreplies hreplying hat with ⟨-, -, h⟩ | ⟨-, h⟩ | ⟨rfl, l, hl, h⟩ |
    ⟨h, -, hreaper, hnot⟩
  · rw [hown] at h
    cases h
  · rw [hholds] at h
    cases h
  · rw [hlisten] at hl
    cases hl
    exact .inr ⟨h.symm, rfl⟩
  · refine .inl ⟨h, ?_⟩
    rintro rfl rfl
    rcases hpn with rfl | ⟨rfl, rfl⟩
    · exact hreaper rfl
    · exact hnot rfl rfl

/-- The reaper of visitor `n` takes the window for `id`. -/
theorem unique_takes {id : ℕ} (hown : flow.isOwn = false) (hholds : flow.holds = some id)
    (hslot : ∃ l ∈ s.engine.listen, l.eventId = id) (hlisten : t.engine.listen = none) :
    Unique t := by
  refine unique_move (q := .reaper n) hs (p := .slot) hslot fun m r hat => ?_
  rcases has_update hflows hreplies hreplying hat with ⟨-, -, h⟩ | ⟨rfl, h⟩ | ⟨-, l, hl, -⟩ |
    ⟨h, hne, -, -⟩
  · rw [hown] at h
    cases h
  · rw [hholds] at h
    cases h
    exact .inr ⟨rfl, rfl⟩
  · rw [hlisten] at hl
    cases hl
  · exact .inl ⟨h, fun _ => hne⟩

end Moves

/-! ### An answered visitor stays answered -/

/-- What the steps keep. -/
structure Inv (s : Monitor) : Prop where
  fresh : ∀ n, s.next ≤ n → s.flows n = .unused
  unique : Unique s
  once : ∀ n, (s.records n).replies.length ≤ 1
  /-- A record with a reply is `answered`, and `listening` is not to be written. -/
  answered : ∀ n, (s.records n).replies ≠ [] →
    (s.records n).state = .answered ∧ (s.flows n).isOpening = false
  heard : ∀ p ∈ s.attributed, p.1 < s.heard
  single : ∀ t n n', (t, n) ∈ s.attributed → (t, n') ∈ s.attributed → n = n'

theorem Inv.staysAnswered {s : Monitor} (hs : Inv s) : StaysAnswered s :=
  ⟨fun n h => (hs.answered n h).1, hs.once, hs.single⟩

theorem inv_initial : Inv {} := by
  refine ⟨fun _ _ => rfl, ?_, fun _ => Nat.zero_le _, ?_, ?_, ?_⟩
  · intro n p q hp hq
    cases p with
    | own =>
        cases q with
        | own => rfl
        | slot => simp [Has] at hq
        | reaper m => cases hq
        | replying => simp [Has] at hq
        | replied => exact absurd rfl hq
    | slot => simp [Has] at hp
    | reaper m => cases hp
    | replying => simp [Has] at hp
    | replied => exact absurd rfl hp
  · intro n h
    exact absurd rfl h
  · intro p hp
    cases hp
  · intro t n n' h
    cases h

/-- A record has no reply while its window is elsewhere. -/
theorem Inv.replies_eq_nil {s : Monitor} (hs : Inv s) {n : ℕ} {p : Place} (hp : Has s n p)
    (hne : p ≠ .replied) : (s.records n).replies = [] := by
  by_contra h
  exact hne (hs.unique n p .replied hp h)

/-- **The task of visitor `n` goes on**: no reply is stored, no state of a record with a reply changes,
and a window is not opened for one. -/
theorem inv_of_flow {s t : Monitor} {n : ℕ} {flow : Flow} (hs : Inv s) (hn : n < s.next)
    (hflows : t.flows = Function.update s.flows n flow) (hunique : Unique t)
    (hreplies : ∀ m, (t.records m).replies = (s.records m).replies)
    (hstate : ∀ m, (s.records m).replies ≠ [] → (t.records m).state = (s.records m).state)
    (hopening : flow.isOpening = true → (s.records n).replies = [])
    (hnext : t.next = s.next) (hheard : t.heard = s.heard)
    (hattributed : t.attributed = s.attributed) : Inv t := by
  refine ⟨?_, hunique, ?_, ?_, ?_, ?_⟩
  · rw [hflows, hnext]
    exact fresh_update hs.fresh hn flow
  · intro m
    rw [hreplies]
    exact hs.once m
  · intro m h
    rw [hreplies] at h
    rw [hstate m h, hflows]
    refine ⟨(hs.answered m h).1, ?_⟩
    by_cases hm : m = n
    · subst hm
      rw [Function.update_self]
      by_contra hflow
      exact h (hopening (by simpa using hflow))
    · rw [Function.update_of_ne hm]
      exact (hs.answered m h).2
  · rw [hattributed, hheard]
    exact hs.heard
  · rw [hattributed]
    exact hs.single

/-- A task that is there is that of a visitor. -/
theorem Inv.lt_next {s : Monitor} (hs : Inv s) {n : ℕ} (h : s.flows n ≠ .unused) : n < s.next :=
  lt_of_ne_unused hs.fresh h

/-- The task goes on without opening a window. -/
theorem inv_setFlow {s : Monitor} (hs : Inv s) {n : ℕ} {flow : Flow} (hn : n < s.next)
    (hown : flow.isOwn = true → (s.flows n).isOwn = true)
    (hholds : ∀ id, flow.holds = some id → (s.flows n).holds = some id)
    (hopening : flow.isOpening = false) : Inv (s.setFlow n flow) := by
  refine inv_of_flow hs hn rfl (unique_keeps hs.unique rfl (fun _ => rfl) rfl hown hholds
    fun _ h => h) (fun _ => rfl) (fun _ _ => rfl) ?_ rfl rfl rfl
  rw [hopening]
  exact fun h => by cases h

/-- A window is opened or not. -/
theorem inv_openWindow {s : Monitor} (hs : Inv s) {n id windowMs : ℕ} {armListen : Bool}
    {opened : ℕ → Flow} {refused : Flow} (hn : n < s.next)
    (hbefore : ((s.flows n).isOwn = true ∧ id = n) ∨ (s.flows n).holds = some id)
    (hopened : ∀ d, (opened d).isOwn = false ∧ (opened d).holds = none ∧
      ((opened d).isOpening = true → (s.flows n).isOwn = true))
    (hrefused : refused.isOwn = (s.flows n).isOwn ∧ refused.holds = (s.flows n).holds ∧
      refused.isOpening = false) :
    Inv (s.openWindow n id armListen windowMs opened refused) := by
  unfold Monitor.openWindow
  dsimp only
  split
  · rename_i hopen
    obtain ⟨-, hengine⟩ := Away.Engine.openListen_of_true hopen.2
    refine inv_of_flow hs hn rfl (unique_opens hs.unique rfl (fun _ => rfl) rfl (hopened _).1
      (hopened _).2.1 hbefore (congrArg Away.Engine.listen hengine)) (fun _ => rfl)
      (fun _ _ => rfl) ?_ rfl rfl rfl
    intro h
    exact hs.replies_eq_nil (p := .own) ((hopened _).2.2 h) (by simp)
  · refine inv_setFlow hs hn ?_ ?_ hrefused.2.2
    · rw [hrefused.1]
      exact fun h => h
    · rw [hrefused.2.1]
      exact fun _ h => h

/-- A reaper wakes up. -/
theorem inv_reap {s : Monitor} (hs : Inv s) {n : ℕ} {taken : ℕ → Flow} (hn : n < s.next)
    (htaken : ∀ id, (taken id).isOwn = false ∧ (taken id).holds = some id ∧
      (taken id).isOpening = false) : Inv (s.reap n taken) := by
  unfold Monitor.reap
  cases hexpire : (s.engine.expireListen s.nowMs).1 with
  | some id =>
      obtain ⟨⟨l, hl, hid, -⟩, hengine⟩ := Away.Engine.expireListen_eq_some hexpire
      refine inv_of_flow hs hn rfl (unique_takes hs.unique rfl (fun _ => rfl) rfl (htaken id).1
        (htaken id).2.1 ⟨l, hl, hid⟩ (congrArg Away.Engine.listen hengine)) (fun _ => rfl)
        (fun _ _ => rfl) ?_ rfl rfl rfl
      rw [(htaken id).2.2]
      exact fun h => by cases h
  | none =>
      obtain ⟨-, hengine⟩ := Away.Engine.expireListen_eq_none hexpire
      refine inv_of_flow hs hn rfl (unique_keeps hs.unique rfl (fun _ => rfl) rfl ?_ ?_ ?_)
        (fun _ => rfl) (fun _ _ => rfl) ?_ rfl rfl rfl
      · exact fun h => by cases h
      · exact fun _ h => by cases h
      · dsimp only [Monitor.setFlow]
        rw [hengine]
        exact fun _ h => h
      · exact fun h => by cases h

/-- A state is written, for a record that has no reply. -/
theorem inv_lands {s : Monitor} (hs : Inv s) {n id : ℕ} {state : RecordState} {flow : Flow}
    (hn : n < s.next) (hown : flow.isOwn = true → (s.flows n).isOwn = true)
    (hholds : ∀ id, flow.holds = some id → (s.flows n).holds = some id)
    (hopening : flow.isOpening = false) (hid : (s.records id).replies = []) :
    Inv ((s.updateState id state).setFlow n flow) := by
  have hreplies : ∀ m, (((s.updateState id state).setFlow n flow).records m).replies
      = (s.records m).replies := by
    intro m
    by_cases hm : m = id
    · simp [Monitor.setFlow, Monitor.updateState, hm]
    · simp [Monitor.setFlow, Monitor.updateState, hm]
  refine inv_of_flow hs hn rfl (unique_keeps hs.unique rfl hreplies rfl hown hholds
    fun _ h => h) hreplies ?_ ?_ rfl rfl rfl
  · intro m hm
    have hne : m ≠ id := by
      rintro rfl
      exact hm hid
    simp [Monitor.setFlow, Monitor.updateState, hne]
  · rw [hopening]
    exact fun h => by cases h

/-- Only the engine changes, and no window is opened. -/
theorem inv_of_engine {s t : Monitor} (hs : Inv s) (hflows : t.flows = s.flows)
    (hrecords : t.records = s.records) (hreplying : t.replying = s.replying)
    (hlisten : ∀ l ∈ t.engine.listen, l ∈ s.engine.listen) (hnext : t.next = s.next)
    (hheard : t.heard = s.heard) (hattributed : t.attributed = s.attributed) : Inv t := by
  refine ⟨?_, unique_of_imp hs.unique ?_, ?_, ?_, ?_, ?_⟩
  · rw [hflows, hnext]
    exact hs.fresh
  · intro n p hp
    cases p with
    | own => rwa [Has, hflows] at hp
    | slot =>
        obtain ⟨l, hl, hid⟩ := hp
        exact ⟨l, hlisten l hl, hid⟩
    | reaper m => rwa [Has, hflows] at hp
    | replying => rwa [Has, hreplying] at hp
    | replied => rwa [Has, hrecords] at hp
  · rw [hrecords]
    exact hs.once
  · rw [hrecords, hflows]
    exact hs.answered
  · rw [hattributed, hheard]
    exact hs.heard
  · rw [hattributed]
    exact hs.single

/-- **A visitor is seen.** -/
theorem inv_visitor {s : Monitor} (hs : Inv s) {state : RecordState} {flow : Flow}
    (hown : flow.isOwn = true) :
    Inv { s with
      next := s.next + 1
      records := Function.update s.records s.next { state }
      flows := Function.update s.flows s.next flow } := by
  have hunused : s.flows s.next = .unused := hs.fresh _ (Nat.le_refl _)
  have hnil : (s.records s.next).replies = [] :=
    hs.replies_eq_nil (p := .own) (by rw [Has, hunused]; rfl) (by simp)
  have hreplies : ∀ m, (Function.update s.records s.next { state } m).replies
      = (s.records m).replies := proj_update Record.replies hnil.symm
  refine ⟨fresh_begin hs.fresh flow, unique_keeps hs.unique rfl hreplies rfl ?_ ?_ fun _ h => h, ?_,
    ?_, hs.heard, hs.single⟩
  · intro _
    rw [hunused]
    rfl
  · intro id hid
    rw [Flow.holds_of_isOwn hown] at hid
    cases hid
  · intro m
    dsimp only
    rw [hreplies]
    exact hs.once m
  · intro m hm
    dsimp only at hm ⊢
    rw [hreplies] at hm
    by_cases hne : m = s.next
    · subst hne
      exact absurd hnil hm
    · rw [Function.update_of_ne hne, Function.update_of_ne hne]
      exact hs.answered m hm

/-- **Something is heard.** -/
theorem inv_transcript {s : Monitor} (hs : Inv s) :
    Inv { s with
      engine := (s.engine.attributeListen s.nowMs).2
      replying := (s.engine.attributeListen s.nowMs).1.map fun id => (id, s.heard)
      heard := s.heard + 1
      attributed := ((s.engine.attributeListen s.nowMs).1.map fun id => (s.heard, id)).toList
        ++ s.attributed } := by
  have hengine := Away.Engine.attributeListen_snd s.engine s.nowMs
  cases hid : (s.engine.attributeListen s.nowMs).1 with
  | none =>
      refine ⟨hs.fresh, unique_of_imp hs.unique ?_, hs.once, hs.answered, ?_, hs.single⟩
      · intro m p hp
        cases p with
        | slot => simp [Has, hengine] at hp
        | replying => simp [Has] at hp
        | own => exact hp
        | reaper k => exact hp
        | replied => exact hp
      · intro p hp
        exact Nat.lt_succ_of_lt (hs.heard p hp)
  | some id =>
      have hslot := Away.Engine.attributeListen_eq_some hid
      refine ⟨hs.fresh, unique_move (p := .slot) (q := .replying) hs.unique hslot ?_, hs.once,
        hs.answered, ?_, ?_⟩
      · intro m p hp
        cases p with
        | slot => simp [Has, hengine] at hp
        | replying =>
            obtain ⟨q, hq, hqm⟩ := hp
            cases hq
            exact .inr ⟨hqm.symm, rfl⟩
        | own => exact .inl ⟨hp, by simp⟩
        | reaper k => exact .inl ⟨hp, by simp⟩
        | replied => exact .inl ⟨hp, by simp⟩
      · intro p hp
        rcases List.mem_cons.1 hp with rfl | hp
        · exact Nat.lt_succ_self _
        · exact Nat.lt_succ_of_lt (hs.heard p hp)
      · -- the transcript is new
        intro t n n' h h'
        rcases List.mem_cons.1 h with h | h <;> rcases List.mem_cons.1 h' with h' | h'
        · cases h
          cases h'
          rfl
        · cases h
          exact absurd (hs.heard _ h') (Nat.lt_irrefl _)
        · cases h'
          exact absurd (hs.heard _ h) (Nat.lt_irrefl _)
        · exact hs.single t n n' h h'

/-- **A reply is stored.** -/
theorem inv_replyLands {s : Monitor} (hs : Inv s) {id transcript : ℕ}
    (hreplying : s.replying = some (id, transcript)) (horder : (s.flows id).isOpening = false) :
    Inv { s.updateReply id transcript with replying := none } := by
  have hhas : Has s id .replying := ⟨(id, transcript), hreplying, rfl⟩
  have hnil : (s.records id).replies = [] := hs.replies_eq_nil hhas (by simp)
  refine ⟨hs.fresh, unique_move (q := .replied) hs.unique hhas ?_, ?_, ?_, hs.heard, hs.single⟩
  · intro m p hp
    cases p with
    | own => exact .inl ⟨hp, by simp⟩
    | slot => exact .inl ⟨hp, by simp⟩
    | reaper k => exact .inl ⟨hp, by simp⟩
    | replying => simp [Has] at hp
    | replied =>
        by_cases hm : m = id
        · exact .inr ⟨hm, rfl⟩
        · refine .inl ⟨?_, by simp⟩
          simpa [Has, Monitor.updateReply, hm] using hp
  · intro m
    by_cases hm : m = id
    · simp [Monitor.updateReply, hm, hnil]
    · simpa [Monitor.updateReply, hm] using hs.once m
  · intro m h
    by_cases hm : m = id
    · subst hm
      exact ⟨by simp [Monitor.updateReply], horder⟩
    · simp only [Monitor.updateReply, Function.update_of_ne hm] at h ⊢
      exact hs.answered m h

/-- A greeting is over. -/
theorem inv_greeted {listenMs : ℕ} {s t : Monitor} {n : ℕ} {spoken armListen : Bool} (hs : Inv s)
    (h : monitorStep listenMs s (.greeted n spoken armListen) = some t) : Inv t := by
  rw [monitorStep] at h
  split at h
  · rename_i known hflow
    have hn : n < s.next := hs.lt_next (by simp [hflow])
    cases spoken with
    | true =>
        cases known with
        | true =>
            cases h
            exact inv_setFlow hs hn (by rw [hflow]; exact fun _ => rfl) (fun _ h => by cases h) rfl
        | false =>
            cases h
            refine inv_openWindow hs hn (.inl ⟨by rw [hflow]; rfl, rfl⟩) ?_ ?_
            · exact fun d => ⟨rfl, rfl, fun _ => by rw [hflow]; rfl⟩
            · rw [hflow]
              exact ⟨rfl, rfl, rfl⟩
    | false =>
        cases h
        refine inv_setFlow hs hn (by rw [hflow]; exact fun _ => rfl) ?_ ?_ <;> cases known
        · exact fun _ h => by cases h
        · exact fun _ h => by cases h
        · rfl
        · rfl
  · cases h

/-- **An outstanding state is written.** -/
theorem inv_landsStep {listenMs : ℕ} {s t : Monitor} {n : ℕ} (hs : Inv s)
    (h : monitorStep listenMs s (.lands n) = some t) : Inv t := by
  rw [monitorStep] at h
  split at h
  · rename_i hflow
    cases h
    refine inv_lands hs (hs.lt_next (by simp [hflow])) (by rw [hflow]; exact fun _ => rfl)
      (fun _ h => by cases h) rfl ?_
    exact hs.replies_eq_nil (p := .own) (by rw [Has, hflow]; rfl) (by simp)
  · rename_i deadline hflow
    cases h
    refine inv_lands hs (hs.lt_next (by simp [hflow])) (fun h => by cases h)
      (fun _ h => by cases h) rfl ?_
    by_contra hreplies
    have := (hs.answered n hreplies).2
    rw [hflow] at this
    cases this
  · rename_i id hflow
    cases h
    refine inv_lands hs (hs.lt_next (by simp [hflow])) (fun h => by cases h)
      (by rw [hflow]; exact fun _ h => h) rfl ?_
    exact hs.replies_eq_nil (p := .reaper n) (by rw [Has, hflow]; rfl) (by simp)
  · rename_i id hflow
    cases h
    refine inv_lands hs (hs.lt_next (by simp [hflow])) (fun h => by cases h)
      (fun _ h => by cases h) rfl ?_
    exact hs.replies_eq_nil (p := .reaper n) (by rw [Has, hflow]; rfl) (by simp)
  · cases h

/-- **A reply is stored in order, or something else happens**: the invariant is kept. -/
theorem inv_monitorStep {listenMs : ℕ} {s t : Monitor} {e : MonitorEvent} (hs : Inv s)
    (horder : ReplyInOrder s e) (h : monitorStep listenMs s e = some t) : Inv t := by
  cases e with
  | tick nowMs =>
      rw [monitorStep, Option.ite_none_right_eq_some] at h
      cases h.2
      exact inv_of_engine hs rfl rfl rfl (fun _ h => h) rfl rfl rfl
  | arm =>
      cases h
      refine inv_of_engine hs rfl rfl rfl ?_ rfl rfl rfl
      intro l hl
      rwa [Away.Engine.arm_listen] at hl
  | disarm =>
      cases h
      refine inv_of_engine hs rfl rfl rfl ?_ rfl rfl rfl
      intro l hl
      cases hl
  | visitor voice known =>
      rw [monitorStep, Option.ite_none_right_eq_some] at h
      cases h.2
      refine inv_visitor hs ?_
      cases voice <;> rfl
  | greeted n spoken armListen => exact inv_greeted hs h
  | lands n => exact inv_landsStep hs h
  | wakes n deterrence =>
      rw [monitorStep] at h
      split at h
      · rename_i deadline hflow
        rw [Option.ite_none_right_eq_some] at h
        cases h.2
        refine inv_reap hs (hs.lt_next (by simp [hflow])) ?_
        cases deterrence <;> exact fun id => ⟨rfl, rfl, rfl⟩
      · rename_i deadline hflow
        rw [Option.ite_none_right_eq_some] at h
        cases h.2
        exact inv_reap hs (hs.lt_next (by simp [hflow])) fun id => ⟨rfl, rfl, rfl⟩
      · cases h
  | reopens n armListen =>
      rw [monitorStep] at h
      split at h
      · rename_i id hflow
        cases h
        refine inv_openWindow hs (hs.lt_next (by simp [hflow])) (.inr (by rw [hflow]; rfl)) ?_ ?_
        · exact fun d => ⟨rfl, rfl, fun h => by cases h⟩
        · rw [hflow]
          exact ⟨rfl, rfl, rfl⟩
      · cases h
  | transcript =>
      rw [monitorStep, Option.ite_none_right_eq_some] at h
      cases h.2
      exact inv_transcript hs
  | replyLands =>
      rw [monitorStep] at h
      split at h
      · rename_i id transcript hreplying
        cases h
        exact inv_replyLands hs hreplying (horder _ hreplying)
      · cases h

/-- **An answered visitor stays answered**: in a run in which no reply is stored while the write of
`listening` for its record is outstanding, a record with a reply is `answered` in every state, has one
reply, and every transcript is attributed to one record. -/
theorem staysAnswered_passes {listenMs : ℕ} {s : Monitor} {es : List MonitorEvent}
    (horder : ∀ u e, Occurs (monitorStep listenMs) {} es u e → ReplyInOrder u e)
    (h : Passes (monitorStep listenMs) {} es s) : StaysAnswered s :=
  (passes_induction (fun u e _ hu hinv => inv_monitorStep hinv (horder u e hu)) inv_initial
    h).staysAnswered

/-- A visitor answers, and the reaper finds the window closed. -/
def answeredInTime : List MonitorEvent :=
  [.arm, .visitor true false, .greeted 0 true true, .lands 0, .tick 9000, .transcript, .replyLands,
    .tick 16000, .wakes 0 false]

theorem staysAnswered_answeredInTime :
    ∃ s, Passes (monitorStep 8000) {} answeredInTime s ∧ StaysAnswered s ∧
      s.records 0 = ⟨.answered, [0]⟩ := by
  have hend : (exec (monitorStep 8000) {} answeredInTime).map (fun s => s.records 0)
      = some ⟨.answered, [0]⟩ := by decide
  obtain ⟨s, hs, hrecord⟩ := Option.map_eq_some_iff.1 hend
  refine ⟨s, ⟨_, List.prefix_rfl, hs⟩, ?_, hrecord⟩
  refine staysAnswered_passes ?_ ⟨_, List.prefix_rfl, hs⟩
  intro u e hu
  exact of_decide_eq_true (forall_occurs_of_along (p := fun u e => decide (ReplyInOrder u e))
    (by decide) u e hu)

/-- A visitor answers before the greeting task has moved the record to `listening`. -/
def answeredAtOnce : List MonitorEvent :=
  [.arm, .visitor true false, .greeted 0 true true, .transcript, .replyLands, .lands 0]

/-- **The record is `listening` again**, with the reply in it. -/
theorem not_staysAnswered_answeredAtOnce :
    ∃ s, Passes (monitorStep 8000) {} answeredAtOnce s ∧ s.records 0 = ⟨.listening, [0]⟩ ∧
      ¬ StaysAnswered s := by
  have hend : (exec (monitorStep 8000) {} answeredAtOnce).map (fun s => s.records 0)
      = some ⟨.listening, [0]⟩ := by decide
  obtain ⟨s, hs, hrecord⟩ := Option.map_eq_some_iff.1 hend
  refine ⟨s, ⟨_, List.prefix_rfl, hs⟩, hrecord, ?_⟩
  intro h
  have := h.answered 0
  rw [hrecord] at this
  exact RecordState.noConfusion (this (by simp))

end Visitors
