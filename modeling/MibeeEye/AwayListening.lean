/-
**Listening resolves.**

The window of a visitor is closed by the answer, by the reaper, or by disarming, and only the first two
settle the record.  The reaper of a window takes any window that has expired, and looks at nothing else;
a window can be opened while the device is not armed.  Over the tasks of `AwayVisitors` this module says
when every reaper leaves its record settled and its window closed.

Main definitions:

* `Visitors.Resolved` — what is to hold in every state;
* `Visitors.Orderly` — the steps that leave a window to its reaper;
* `Visitors.Awaited` — the invariant: a window that a task awaits is open, or was answered.

Main results:

* `Visitors.awaited_monitorStep` — the invariant is kept by every orderly step;
* `Visitors.resolved_passes` — **listening resolves** in a run of such steps.
-/

import MibeeEye.AwayVisitors

set_option relaxedAutoImplicit false
set_option autoImplicit false

namespace Visitors

open Machine

/-! ### What is to hold -/

/-- **Listening resolves**: when the reaper has finished, the window is closed and the record is
`answered`, `silent` or `no_voice`; and no window is open while the device is not armed. -/
structure Resolved (s : Monitor) : Prop where
  closed : ∀ n, s.flows n = .finished → ∀ l ∈ s.engine.listen, l.eventId ≠ n
  resolved : ∀ n, s.flows n = .finished → (s.records n).state = .answered ∨
    (s.records n).state = .silent ∨ (s.records n).state = .noVoice
  disarmed : s.engine.armed = false → s.engine.listen = none

/-- **The steps that leave a window to its reaper.**  The device is not disarmed while a window is open,
and none is opened while it is not armed; nothing is heard in a window that has expired; and a reaper
wakes up to no expired window of another visitor, and to no reply of its own that is outstanding. -/
def Orderly (s : Monitor) : MonitorEvent → Prop
  | .disarm => s.engine.listen = none
  | .greeted n spoken armListen => s.flows n = .greeting false → spoken = true →
      armListen = true → s.engine.listen = none → s.engine.armed = true
  | .reopens _ armListen => armListen = true → s.engine.listen = none → s.engine.armed = true
  | .transcript => ∀ l ∈ s.engine.listen, s.nowMs ≤ l.deadlineMs
  | .wakes n _ => (∀ l ∈ s.engine.listen, l.deadlineMs < s.nowMs → l.eventId = n) ∧
      ∀ p ∈ s.replying, p.1 ≠ n
  | .replyLands => ReplyInOrder s .replyLands
  | .tick _ | .arm | .visitor _ _ | .lands _ => True

instance (s : Monitor) : DecidablePred (Orderly s)
  | .disarm => inferInstanceAs (Decidable (s.engine.listen = none))
  | .greeted n spoken armListen => inferInstanceAs (Decidable (s.flows n = .greeting false →
      spoken = true → armListen = true → s.engine.listen = none → s.engine.armed = true))
  | .reopens _ armListen => inferInstanceAs (Decidable
      (armListen = true → s.engine.listen = none → s.engine.armed = true))
  | .transcript => inferInstanceAs (Decidable (∀ l ∈ s.engine.listen, s.nowMs ≤ l.deadlineMs))
  | .wakes n _ => inferInstanceAs (Decidable
      ((∀ l ∈ s.engine.listen, l.deadlineMs < s.nowMs → l.eventId = n) ∧ ∀ p ∈ s.replying, p.1 ≠ n))
  | .replyLands => inferInstanceAs (Decidable (ReplyInOrder s .replyLands))
  | .tick _ | .arm | .visitor _ _ | .lands _ => inferInstanceAs (Decidable True)

/-! ### The invariant -/

/-- The deadline of the window whose answer a task awaits. -/
def Flow.window : Flow → Option ℕ
  | opening deadline | sleeping deadline | sleepingAgain _ deadline => some deadline
  | unused | ended | greeting _ | refusing | reasking _ | speaking _ | settling _ | finished => none

/-- What the orderly steps keep. -/
structure Awaited (s : Monitor) : Prop where
  base : Inv s
  armed : ∀ l ∈ s.engine.listen, s.engine.armed = true
  /-- A reaper has its own visitor in its hands. -/
  held : ∀ n id, (s.flows n).holds = some id → id = n
  again : ∀ n id d, s.flows n = .sleepingAgain id d → id = n
  /-- The task of the window that is open awaits it. -/
  slot : ∀ l ∈ s.engine.listen, (s.flows l.eventId).window = some l.deadlineMs
  /-- A window that is awaited is open, or was answered. -/
  awaited : ∀ n d, (s.flows n).window = some d →
    Has s n .slot ∨ Has s n .replying ∨ Has s n .replied
  finished : ∀ n, s.flows n = .finished →
    (s.records n).state = .answered ∨ (s.records n).state = .silent

theorem Awaited.resolved {s : Monitor} (hs : Awaited s) : Resolved s := by
  refine ⟨?_, ?_, ?_⟩
  · rintro n hn l hl rfl
    have := hs.slot l hl
    rw [hn] at this
    cases this
  · intro n hn
    rcases hs.finished n hn with h | h
    · exact .inl h
    · exact .inr (.inl h)
  · intro harmed
    cases hlisten : s.engine.listen with
    | none => rfl
    | some l =>
        rw [hs.armed l hlisten] at harmed
        cases harmed

theorem awaited_initial : Awaited {} := by
  refine ⟨inv_initial, ?_, ?_, ?_, ?_, ?_, ?_⟩
  · intro l hl
    cases hl
  · intro n id h
    cases h
  · intro n id d h
    cases h
  · intro l hl
    cases hl
  · intro n d h
    cases h
  · intro n h
    cases h

/-- **The task of visitor `n` goes on**, and the others find their windows as they were. -/
theorem awaited_of_flow {s t : Monitor} {n : ℕ} {flow : Flow} (hs : Awaited s) (hbase : Inv t)
    (hflows : t.flows = Function.update s.flows n flow)
    (hreplies : ∀ m, (t.records m).replies = (s.records m).replies)
    (hreplying : t.replying = s.replying)
    (hstate : ∀ m, m ≠ n → (t.records m).state = (s.records m).state)
    (harmed : ∀ l ∈ t.engine.listen, t.engine.armed = true)
    (hheld : ∀ id, flow.holds = some id → id = n)
    (hagain : ∀ id d, flow = .sleepingAgain id d → id = n)
    (hslot : ∀ l ∈ t.engine.listen,
      (l.eventId = n ∧ flow.window = some l.deadlineMs) ∨ (l.eventId ≠ n ∧ l ∈ s.engine.listen))
    (hothers : ∀ m, m ≠ n → Has s m .slot → Has t m .slot)
    (hself : ∀ d, flow.window = some d → Has t n .slot ∨ Has s n .replying ∨ Has s n .replied)
    (hfinished : flow = .finished →
      (t.records n).state = .answered ∨ (t.records n).state = .silent) : Awaited t := by
  have hself' : t.flows n = flow := by rw [hflows, Function.update_self]
  have hold : ∀ m, m ≠ n → t.flows m = s.flows m := by
    intro m hm
    rw [hflows, Function.update_of_ne hm]
  refine ⟨hbase, harmed, ?_, ?_, ?_, ?_, ?_⟩
  · intro m id h
    by_cases hm : m = n
    · subst hm
      rw [hself'] at h
      exact hheld id h
    · rw [hold m hm] at h
      exact hs.held m id h
  · intro m id d h
    by_cases hm : m = n
    · subst hm
      exact hagain id d (hself'.symm.trans h)
    · rw [hold m hm] at h
      exact hs.again m id d h
  · intro l hl
    rcases hslot l hl with ⟨rfl, h⟩ | ⟨hne, h⟩
    · rw [hself', h]
    · rw [hold _ hne]
      exact hs.slot l h
  · intro m d h
    have hplaces : Has s m .replying ∨ Has s m .replied → Has t m .replying ∨ Has t m .replied := by
      rintro (h | h)
      · refine .inl ?_
        rwa [Has, hreplying]
      · refine .inr ?_
        rwa [Has, hreplies]
    by_cases hm : m = n
    · subst hm
      rw [hself'] at h
      exact (hself d h).imp_right hplaces
    · rw [hold m hm] at h
      exact (hs.awaited m d h).imp (hothers m hm) hplaces
  · intro m h
    by_cases hm : m = n
    · subst hm
      exact hfinished (hself'.symm.trans h)
    · rw [hold m hm] at h
      rw [hstate m hm]
      exact hs.finished m h

/-- The window that is open is not that of a visitor whose task awaits none. -/
theorem Awaited.ne_of_window {s : Monitor} (hs : Awaited s) {n : ℕ} (hn : (s.flows n).window = none) :
    ∀ l ∈ s.engine.listen, l.eventId ≠ n := by
  rintro l hl rfl
  have := hs.slot l hl
  rw [hn] at this
  cases this

/-- A window is opened for visitor `n`, while the device is armed. -/
theorem awaited_openWindow {s : Monitor} (hs : Awaited s) {n windowMs : ℕ} {armListen : Bool}
    {opened : ℕ → Flow} {refused : Flow}
    (hbase : Inv (s.openWindow n n armListen windowMs opened refused))
    (harmed : armListen = true → s.engine.listen = none → s.engine.armed = true)
    (hbefore : (s.flows n).window = none)
    (hopened : ∀ d, (opened d).window = some d ∧ (opened d).holds = none ∧
      ∀ id d', opened d = .sleepingAgain id d' → id = n)
    (hrefused : refused.window = none ∧ (∀ id, refused.holds = some id → id = n) ∧
      refused ≠ .finished) :
    Awaited (s.openWindow n n armListen windowMs opened refused) := by
  unfold Monitor.openWindow at hbase ⊢
  dsimp only at hbase ⊢
  split at hbase
  · rename_i hopen
    rw [if_pos hopen]
    obtain ⟨hnone, hengine⟩ := Away.Engine.openListen_of_true hopen.2
    obtain ⟨hwindow, hholds, hagain⟩ := hopened (s.nowMs + windowMs + listenGraceMs)
    have hlisten := congrArg Away.Engine.listen hengine
    refine awaited_of_flow hs hbase rfl (fun _ => rfl) rfl (fun _ _ => rfl) ?_ ?_ hagain ?_ ?_ ?_ ?_
    · intro l _
      dsimp only [Monitor.setFlow]
      rw [hengine]
      exact harmed hopen.1 hnone
    · intro id h
      rw [hholds] at h
      cases h
    · intro l hl
      dsimp only [Monitor.setFlow] at hl
      rw [hlisten] at hl
      cases hl
      exact .inl ⟨rfl, hwindow⟩
    · rintro m - ⟨l, hl, -⟩
      rw [hnone] at hl
      cases hl
    · exact fun _ _ => .inl ⟨_, hlisten, rfl⟩
    · intro h
      rw [h] at hwindow
      cases hwindow
  · rename_i hopen
    rw [if_neg hopen]
    refine awaited_of_flow hs hbase rfl (fun _ => rfl) rfl (fun _ _ => rfl) hs.armed hrefused.2.1
      ?_ ?_ (fun _ _ h => h) ?_ (fun h => absurd h hrefused.2.2)
    · intro id d h
      rw [h] at hrefused
      cases hrefused.1
    · exact fun l hl => .inr ⟨hs.ne_of_window hbefore l hl, hl⟩
    · intro d h
      rw [hrefused.1] at h
      cases h

/-- **The reaper of visitor `n` wakes up**: it takes the window of its visitor, or the visitor has
answered. -/
theorem awaited_reap {s : Monitor} (hs : Awaited s) {n deadline : ℕ} {taken : ℕ → Flow}
    (hbase : Inv (s.reap n taken)) (hwindow : (s.flows n).window = some deadline)
    (hlate : deadline + 3000 ≤ s.nowMs)
    (hown : ∀ l ∈ s.engine.listen, l.deadlineMs < s.nowMs → l.eventId = n)
    (hidle : ∀ p ∈ s.replying, p.1 ≠ n)
    (htaken : ∀ id, (taken id).window = none ∧ (taken id).holds = some id ∧
      taken id ≠ .finished) : Awaited (s.reap n taken) := by
  unfold Monitor.reap at hbase ⊢
  cases hexpire : (s.engine.expireListen s.nowMs).1 with
  | some id =>
      rw [hexpire] at hbase
      obtain ⟨⟨l, hl, hid, hexpired⟩, hengine⟩ := Away.Engine.expireListen_eq_some hexpire
      obtain rfl : id = n := hid.symm.trans (hown l hl hexpired)
      obtain ⟨hnone, hholds, hne⟩ := htaken id
      have hlisten := congrArg Away.Engine.listen hengine
      have hclosed : ∀ (l : Away.OpenListen), l ∉ (s.engine.expireListen s.nowMs).2.listen := by
        intro l hl
        rw [hlisten] at hl
        cases hl
      refine awaited_of_flow hs hbase rfl (fun _ => rfl) rfl (fun _ _ => rfl)
        (fun l hl => absurd hl (hclosed l)) ?_ ?_ (fun l hl => absurd hl (hclosed l)) ?_ ?_
        (fun h => absurd h hne)
      · intro id' h
        rw [hholds] at h
        exact (Option.some.inj h).symm
      · intro id' d h
        dsimp only at h
        rw [h] at hnone
        cases hnone
      · rintro m hm ⟨l', hl', rfl⟩
        rw [Option.mem_unique hl' hl] at hm
        exact absurd hid hm
      · intro d h
        rw [hnone] at h
        cases h
  | none =>
      rw [hexpire] at hbase
      obtain ⟨hyoung, hengine⟩ := Away.Engine.expireListen_eq_none hexpire
      have hopen : ¬ Has s n .slot := by
        rintro ⟨l, hl, rfl⟩
        have hdeadline := (hs.slot l hl).symm.trans hwindow
        have := hyoung l hl
        cases hdeadline
        omega
      -- the window is closed, and no reply is outstanding: there is one
      have hanswered : (s.records n).state = .answered := by
        rcases hs.awaited n deadline hwindow with h | ⟨p, hp, h⟩ | h
        · exact absurd h hopen
        · exact absurd h (hidle p hp)
        · exact (hs.base.answered n h).1
      have hlisten : (s.engine.expireListen s.nowMs).2.listen = s.engine.listen :=
        congrArg Away.Engine.listen hengine
      refine awaited_of_flow hs hbase rfl (fun _ => rfl) rfl (fun _ _ => rfl) ?_
        (fun _ h => by cases h) (fun _ _ h => by cases h) ?_ ?_ (fun _ h => by cases h)
        (fun _ => .inl hanswered)
      · intro l hl
        dsimp only [Monitor.setFlow] at hl ⊢
        rw [hengine] at hl ⊢
        exact hs.armed l hl
      · intro l hl
        dsimp only [Monitor.setFlow] at hl
        rw [hlisten] at hl
        exact .inr ⟨fun h => hopen ⟨l, hl, h⟩, hl⟩
      · rintro m - ⟨l, hl, h⟩
        exact ⟨l, hlisten.trans hl, h⟩

/-- A state is written for the record of visitor `n`. -/
theorem awaited_lands {s : Monitor} (hs : Awaited s) {n : ℕ} {state : RecordState} {flow : Flow}
    (hbase : Inv ((s.updateState n state).setFlow n flow))
    (hwindow : flow.window = (s.flows n).window)
    (hheld : ∀ id, flow.holds = some id → id = n)
    (hagain : ∀ id d, flow ≠ .sleepingAgain id d)
    (hfinished : flow = .finished → state = .silent) :
    Awaited ((s.updateState n state).setFlow n flow) := by
  have hreplies : ∀ m, (((s.updateState n state).setFlow n flow).records m).replies
      = (s.records m).replies := by
    intro m
    by_cases hm : m = n
    · simp [Monitor.setFlow, Monitor.updateState, hm]
    · simp [Monitor.setFlow, Monitor.updateState, hm]
  refine awaited_of_flow hs hbase rfl hreplies rfl ?_ hs.armed hheld
    (fun id d h => absurd h (hagain id d)) ?_ (fun _ _ h => h) ?_ ?_
  · intro m hm
    simp [Monitor.setFlow, Monitor.updateState, hm]
  · intro l hl
    by_cases hn : l.eventId = n
    · refine .inl ⟨hn, ?_⟩
      rw [hwindow, ← hn]
      exact hs.slot l hl
    · exact .inr ⟨hn, hl⟩
  · intro d h
    rw [hwindow] at h
    exact hs.awaited n d h
  · intro h
    refine .inr ?_
    simp [Monitor.setFlow, Monitor.updateState, hfinished h]

/-- The task of visitor `n` ends without a window. -/
theorem awaited_setFlow {s : Monitor} (hs : Awaited s) {n : ℕ} {flow : Flow}
    (hbase : Inv (s.setFlow n flow)) (hbefore : (s.flows n).window = none)
    (hown : flow.isOwn = true) : Awaited (s.setFlow n flow) := by
  have hwindow : flow.window = none := by
    cases flow <;> first | rfl | cases hown
  refine awaited_of_flow hs hbase rfl (fun _ => rfl) rfl (fun _ _ => rfl) hs.armed ?_ ?_ ?_
    (fun _ _ h => h) ?_ ?_
  · intro id h
    rw [Flow.holds_of_isOwn hown] at h
    cases h
  · rintro id d rfl
    cases hown
  · exact fun l hl => .inr ⟨hs.ne_of_window hbefore l hl, hl⟩
  · intro d h
    rw [hwindow] at h
    cases h
  · rintro rfl
    cases hown

/-- **A visitor is seen.** -/
theorem awaited_visitor {s t : Monitor} (hs : Awaited s) (hbase : Inv t) {state : RecordState}
    {flow : Flow} (hown : flow.isOwn = true)
    (ht : t = { s with
      next := s.next + 1
      records := Function.update s.records s.next { state }
      flows := Function.update s.flows s.next flow }) : Awaited t := by
  have hunused : s.flows s.next = .unused := hs.base.fresh _ (Nat.le_refl _)
  have hnil : (s.records s.next).replies = [] :=
    hs.base.replies_eq_nil (p := .own) (by rw [Has, hunused]; rfl) (by simp)
  have hwindow : flow.window = none := by
    cases flow <;> first | rfl | cases hown
  subst ht
  refine awaited_of_flow hs hbase rfl ?_ rfl ?_ hs.armed ?_ ?_ ?_ (fun _ _ h => h) ?_ ?_
  · intro m
    by_cases hm : m = s.next
    · simp [hm, hnil]
    · simp [hm]
  · intro m hm
    simp [hm]
  · intro id h
    rw [Flow.holds_of_isOwn hown] at h
    cases h
  · rintro id d rfl
    cases hown
  · exact fun l hl => .inr ⟨hs.ne_of_window (by rw [hunused]; rfl) l hl, hl⟩
  · intro d h
    rw [hwindow] at h
    cases h
  · rintro rfl
    cases hown

/-- **Something is heard**, in time: the window is answered. -/
theorem awaited_transcript {listenMs : ℕ} {s t : Monitor} (hs : Awaited s) (hbase : Inv t)
    (hintime : ∀ l ∈ s.engine.listen, s.nowMs ≤ l.deadlineMs)
    (h : monitorStep listenMs s .transcript = some t) : Awaited t := by
  rw [monitorStep, Option.ite_none_right_eq_some] at h
  obtain ⟨⟨hidle, -⟩, h⟩ := h
  cases h
  have hlisten : (s.engine.attributeListen s.nowMs).2.listen = none := by
    rw [Away.Engine.attributeListen_snd]
  refine ⟨hbase, ?_, hs.held, hs.again, ?_, ?_, hs.finished⟩
  · intro l hl
    dsimp only at hl
    rw [hlisten] at hl
    cases hl
  · intro l hl
    dsimp only at hl
    rw [hlisten] at hl
    cases hl
  · intro n d hn
    rcases hs.awaited n d hn with ⟨l, hl, rfl⟩ | ⟨p, hp, -⟩ | hreplied
    · refine .inr (.inl ⟨(l.eventId, s.heard), ?_, rfl⟩)
      dsimp only
      rw [Away.Engine.attributeListen_of_le hl (hintime l hl)]
      rfl
    · rw [hidle] at hp
      cases hp
    · exact .inr (.inr hreplied)

/-- **A reply is stored.** -/
theorem awaited_replyLands {s : Monitor} (hs : Awaited s) {id transcript : ℕ}
    (hbase : Inv { s.updateReply id transcript with replying := none })
    (hreplying : s.replying = some (id, transcript)) :
    Awaited { s.updateReply id transcript with replying := none } := by
  refine ⟨hbase, hs.armed, hs.held, hs.again, hs.slot, ?_, ?_⟩
  · intro n d hn
    by_cases hid : n = id
    · subst hid
      refine .inr (.inr ?_)
      simp [Has, Monitor.updateReply]
    · rcases hs.awaited n d hn with h | ⟨p, hp, h⟩ | h
      · exact .inl h
      · rw [hreplying] at hp
        cases hp
        exact absurd h.symm hid
      · refine .inr (.inr ?_)
        simpa [Has, Monitor.updateReply, hid] using h
  · intro n hn
    by_cases hid : n = id
    · simp [Monitor.updateReply, hid]
    · simpa [Monitor.updateReply, hid] using hs.finished n hn

/-- Only the clock or the flag changes. -/
theorem awaited_of_engine {s t : Monitor} (hs : Awaited s) (hbase : Inv t)
    (hflows : t.flows = s.flows) (hrecords : t.records = s.records)
    (hreplying : t.replying = s.replying) (hlisten : t.engine.listen = s.engine.listen)
    (harmed : ∀ l ∈ t.engine.listen, t.engine.armed = true) : Awaited t := by
  refine ⟨hbase, harmed, ?_, ?_, ?_, ?_, ?_⟩
  · rw [hflows]
    exact hs.held
  · rw [hflows]
    exact hs.again
  · rw [hlisten, hflows]
    exact hs.slot
  · intro n d h
    rw [hflows] at h
    simp only [Has, hlisten, hreplying, hrecords]
    exact hs.awaited n d h
  · rw [hflows, hrecords]
    exact hs.finished

theorem replyInOrder_of_orderly {s : Monitor} {e : MonitorEvent} (h : Orderly s e) :
    ReplyInOrder s e := by
  cases e <;> first | exact h | exact trivial

/-- A greeting is over. -/
theorem awaited_greeted {listenMs : ℕ} {s t : Monitor} {n : ℕ} {spoken armListen : Bool}
    (hs : Awaited s) (hbase : Inv t) (horderly : Orderly s (.greeted n spoken armListen))
    (h : monitorStep listenMs s (.greeted n spoken armListen) = some t) : Awaited t := by
  rw [monitorStep] at h
  split at h
  · rename_i known hflow
    have hbefore : (s.flows n).window = none := by
      rw [hflow]
      rfl
    cases spoken with
    | true =>
        cases known with
        | true =>
            cases h
            exact awaited_setFlow hs hbase hbefore rfl
        | false =>
            cases h
            refine awaited_openWindow hs hbase (horderly hflow rfl) hbefore ?_ ?_
            · exact fun d => ⟨rfl, rfl, fun _ _ h => by cases h⟩
            · exact ⟨rfl, fun _ h => (by cases h), by simp⟩
    | false =>
        cases h
        refine awaited_setFlow hs hbase hbefore ?_
        cases known <;> rfl
  · cases h

/-- **An outstanding state is written.** -/
theorem awaited_landsStep {listenMs : ℕ} {s t : Monitor} {n : ℕ} (hs : Awaited s) (hbase : Inv t)
    (h : monitorStep listenMs s (.lands n) = some t) : Awaited t := by
  rw [monitorStep] at h
  split at h
  · rename_i hflow
    cases h
    exact awaited_lands hs hbase (by rw [hflow]; rfl) (fun _ h => by cases h) (by simp) (by simp)
  · rename_i deadline hflow
    cases h
    exact awaited_lands hs hbase (by rw [hflow]; rfl) (fun _ h => by cases h) (by simp) (by simp)
  · rename_i id hflow
    cases h
    obtain rfl : id = n := hs.held n id (by rw [hflow]; rfl)
    refine awaited_lands hs hbase (by rw [hflow]; rfl) ?_ (by simp) (by simp)
    exact fun _ h => (Option.some.inj h).symm
  · rename_i id hflow
    cases h
    obtain rfl : id = n := hs.held n id (by rw [hflow]; rfl)
    exact awaited_lands hs hbase (by rw [hflow]; rfl) (fun _ h => by cases h) (by simp)
      fun _ => rfl
  · cases h

/-- **Every orderly step keeps what is awaited.** -/
theorem awaited_monitorStep {listenMs : ℕ} {s t : Monitor} {e : MonitorEvent} (hs : Awaited s)
    (horderly : Orderly s e) (h : monitorStep listenMs s e = some t) : Awaited t := by
  have hbase : Inv t := inv_monitorStep hs.base (replyInOrder_of_orderly horderly) h
  cases e with
  | tick nowMs =>
      rw [monitorStep, Option.ite_none_right_eq_some] at h
      cases h.2
      exact awaited_of_engine hs hbase rfl rfl rfl rfl hs.armed
  | arm =>
      cases h
      exact awaited_of_engine hs hbase rfl rfl rfl (Away.Engine.arm_listen ..)
        fun _ _ => Away.Engine.arm_armed ..
  | disarm =>
      cases h
      refine awaited_of_engine hs hbase rfl rfl rfl horderly.symm ?_
      intro l hl
      cases hl
  | visitor voice known =>
      rw [monitorStep, Option.ite_none_right_eq_some] at h
      cases h.2
      refine awaited_visitor hs hbase ?_ rfl
      cases voice <;> rfl
  | greeted n spoken armListen => exact awaited_greeted hs hbase horderly h
  | lands n => exact awaited_landsStep hs hbase h
  | wakes n deterrence =>
      rw [monitorStep] at h
      split at h
      · rename_i deadline hflow
        rw [Option.ite_none_right_eq_some] at h
        cases h.2
        refine awaited_reap hs hbase (by rw [hflow]; rfl) h.1 horderly.1 horderly.2 ?_
        cases deterrence <;> exact fun id => ⟨rfl, rfl, by simp⟩
      · rename_i deadline hflow
        rw [Option.ite_none_right_eq_some] at h
        cases h.2
        exact awaited_reap hs hbase (by rw [hflow]; rfl) h.1 horderly.1 horderly.2
          fun id => ⟨rfl, rfl, by simp⟩
      · cases h
  | reopens n armListen =>
      rw [monitorStep] at h
      split at h
      · rename_i id hflow
        cases h
        obtain rfl : id = n := hs.held n id (by rw [hflow]; rfl)
        refine awaited_openWindow hs hbase horderly (by rw [hflow]; rfl) ?_ ?_
        · exact fun d => ⟨rfl, rfl, fun _ _ h => by cases h; rfl⟩
        · exact ⟨rfl, fun _ h => (Option.some.inj h).symm, by simp⟩
      · cases h
  | transcript => exact awaited_transcript hs hbase horderly h
  | replyLands =>
      rw [monitorStep] at h
      split at h
      · rename_i id transcript hreplying
        cases h
        exact awaited_replyLands hs hbase hreplying
      · cases h

/-- **Listening resolves**: in a run of orderly steps, when the reaper of a window has finished, the
window is closed and its record is `answered` or `silent` (or `no_voice`), and no window is open while
the device is not armed. -/
theorem resolved_passes {listenMs : ℕ} {s : Monitor} {es : List MonitorEvent}
    (horderly : ∀ u e, Occurs (monitorStep listenMs) {} es u e → Orderly u e)
    (h : Passes (monitorStep listenMs) {} es s) : Resolved s :=
  (passes_induction (fun u e _ hu hs => awaited_monitorStep hs (horderly u e hu)) awaited_initial
    h).resolved

/-- A visitor is asked twice and answers, and another one finds the window in use. -/
def askedTwice : List MonitorEvent :=
  [.arm, .visitor true false, .greeted 0 true true, .lands 0, .visitor true false,
    .greeted 1 true true, .lands 1, .tick 16000, .wakes 0 true, .lands 0, .reopens 0 true,
    .tick 17000, .transcript, .replyLands, .tick 28000, .wakes 0 true, .disarm]

theorem resolved_askedTwice :
    ∃ s, Passes (monitorStep 8000) {} askedTwice s ∧ Resolved s ∧ s.flows 0 = .finished ∧
      (s.records 0).state = .answered ∧ (s.records 1).state = .noVoice := by
  have hend : (exec (monitorStep 8000) {} askedTwice).map
      (fun s => (s.flows 0, (s.records 0).state, (s.records 1).state))
      = some (.finished, .answered, .noVoice) := by decide
  obtain ⟨s, hs, heq⟩ := Option.map_eq_some_iff.1 hend
  obtain ⟨hflow, heq⟩ := Prod.mk.inj heq
  obtain ⟨hfirst, hsecond⟩ := Prod.mk.inj heq
  refine ⟨s, ⟨_, List.prefix_rfl, hs⟩, ?_, hflow, hfirst, hsecond⟩
  refine resolved_passes ?_ ⟨_, List.prefix_rfl, hs⟩
  intro u e hu
  exact of_decide_eq_true (forall_occurs_of_along (p := fun u e => decide (Orderly u e))
    (by decide) u e hu)

/-- The device is disarmed while a window is open. -/
def disarmedWhileListening : List MonitorEvent :=
  [.arm, .visitor true false, .greeted 0 true true, .lands 0, .disarm, .tick 16000, .wakes 0 false]

/-- **The record is left `listening`**: the reaper has finished. -/
theorem not_resolved_disarmedWhileListening :
    ∃ s, Passes (monitorStep 8000) {} disarmedWhileListening s ∧ s.flows 0 = .finished ∧
      (s.records 0).state = .listening ∧ ¬ Resolved s := by
  have hend : (exec (monitorStep 8000) {} disarmedWhileListening).map
      (fun s => (s.flows 0, (s.records 0).state)) = some (.finished, .listening) := by
    decide
  obtain ⟨s, hs, heq⟩ := Option.map_eq_some_iff.1 hend
  obtain ⟨hflow, hstate⟩ := Prod.mk.inj heq
  refine ⟨s, ⟨_, List.prefix_rfl, hs⟩, hflow, hstate, ?_⟩
  intro h
  have := h.resolved 0 hflow
  rw [hstate] at this
  rcases this with h | h | h <;> cases h

end Visitors
