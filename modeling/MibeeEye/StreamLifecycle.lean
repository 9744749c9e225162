/-
**The lifecycle of streams.**

`StreamLifecycle` of `crates/streaming/src/resource.rs` has the state of every stream behind a lock,
and a watch channel for it.  `transition` is one critical section; `stop` and `restart` read the state
in a critical section of its own, and then make one or two transitions, so that other callers come
between.  The model is a step machine over any number of callers, with a step for each critical section.

A handle reads the value of a channel.  A channel without a receiver refuses a value, which is how the
crate `tokio` documents it.

Main definitions:

* `Lifecycle.StreamState`, with `canTransitionTo`;
* `Lifecycle.Channel`, `Lifecycle.Call`, `Lifecycle.State` — the channels, the calls of `stop` and
  `restart` that have been made, and the streams;
* `Lifecycle.State.transition` — a transition;
* `Lifecycle.Event`, `Lifecycle.step` — what can happen.

Main results:

* `Lifecycle.synced_step` — a channel that is watched has the state of its stream;
* `Lifecycle.observed_step` — **what a handle observes is a transition that is allowed**.
-/

import MibeeEye.StepMachine

set_option relaxedAutoImplicit false
set_option autoImplicit false

namespace Lifecycle

open Machine

/-! ### States -/

/-- `StreamState`. -/
inductive StreamState
  | starting
  | running
  | stopping
  | stopped
  | error
  deriving DecidableEq

/-- How `{:?}` writes a state. -/
def StreamState.debug : StreamState → String
  | .starting => "Starting"
  | .running => "Running"
  | .stopping => "Stopping"
  | .stopped => "Stopped"
  | .error => "Error"

/-- `StreamState::can_transition_to`. -/
def StreamState.canTransitionTo (self next : StreamState) : Bool :=
  match self with
  | .starting => next = .running || next = .error
  | .running => next = .stopping || next = .error
  | .stopping => next = .stopped || next = .error
  | .stopped => next = .starting
  | .error => next = .starting

/-! ### Streams, channels and calls -/

variable {ι : Type}

/-- The errors of `StreamLifecycle`. -/
inductive LifecycleError (ι : Type)
  | notFound (id : ι)
  | invalid (id : ι) (self next : StreamState)
  | alreadyStopped (id : ι)
  | inError (id : ι)
  | alreadyStopping (id : ι)
  | cannotRestart (id : ι) (state : StreamState)

/-- The texts of the errors. -/
def LifecycleError.message [ToString ι] : LifecycleError ι → String
  | notFound id => "Stream " ++ toString id ++ " not found in lifecycle"
  | invalid id self next =>
      "Invalid transition for stream " ++ toString id ++ ": " ++ self.debug ++ " -> " ++ next.debug
  | alreadyStopped id => "Stream " ++ toString id ++ " is already stopped"
  | inError id => "Stream " ++ toString id ++ " is in error state; use restart()"
  | alreadyStopping id => "Stream " ++ toString id ++ " is already stopping"
  | cannotRestart id state =>
      "Stream " ++ toString id ++ " is in " ++ state.debug ++ " state; cannot restart"

/-- A watch channel: its value, the `StreamHandle`s that watch it, and its other receivers. -/
structure Channel where
  value : StreamState := .starting
  handles : ℕ := 0
  receivers : ℕ := 0

/-- `watch::Sender::send`. -/
def Channel.send (c : Channel) (next : StreamState) : Channel :=
  if 0 < c.handles + c.receivers then { c with value := next } else c

/-- Where a call of `stop` or `restart` is. -/
inductive Phase (ι : Type)
  /-- It is to read the state. -/
  | entered
  /-- `stop` is to make its first transition. -/
  | toStopping
  /-- And its second. -/
  | toStopped
  /-- `restart` is to make its transition. -/
  | toStarting
  /-- It has returned, and left a state. -/
  | returned (result : Except (LifecycleError ι) Unit) (left : Option StreamState)

/-- A call of `stop` or `restart`: the stream, the state it has read, and the transitions it has
made. -/
structure Call (ι : Type) where
  stops : Bool
  id : ι
  phase : Phase ι := .entered
  seen : Option StreamState := none
  made : List StreamState := []

/-- `StreamLifecycle`, the channels that have been made, and the calls. -/
structure State (ι : Type) where
  entries : ι → Option (StreamState × ℕ) := fun _ => none
  channels : ℕ → Channel := fun _ => {}
  nextChannel : ℕ := 0
  calls : ℕ → Option (Call ι) := fun _ => none
  nextCall : ℕ := 0

variable [DecidableEq ι]

/-- `StreamLifecycle::state`. -/
def State.state (s : State ι) (id : ι) : Option StreamState := (s.entries id).map Prod.fst

/-- Channel `ch` is now `c`. -/
def State.setChannel (s : State ι) (ch : ℕ) (c : Channel) : State ι :=
  { s with channels := Function.update s.channels ch c }

/-- Call `n` is now `c`. -/
def State.setCall (s : State ι) (n : ℕ) (c : Call ι) : State ι :=
  { s with calls := Function.update s.calls n (some c) }

/-- The stream is in the state `next`, and its channel is told. -/
def State.enter (s : State ι) (id : ι) (ch : ℕ) (next : StreamState) : State ι :=
  { s with
    entries := Function.update s.entries id (some (next, ch))
    channels := Function.update s.channels ch ((s.channels ch).send next) }

/-- `StreamLifecycle::start`. -/
def State.start (s : State ι) (id : ι) : State ι :=
  { s with
    entries := Function.update s.entries id (some (.starting, s.nextChannel))
    channels := Function.update s.channels s.nextChannel { handles := 1 }
    nextChannel := s.nextChannel + 1 }

/-- `StreamLifecycle::transition`. -/
def State.transition (s : State ι) (id : ι) (next : StreamState) :
    Except (LifecycleError ι) (State ι) :=
  match s.entries id with
  | none => .error (.notFound id)
  | some (self, ch) =>
      if self.canTransitionTo next then .ok (s.enter id ch next) else .error (.invalid id self next)

/-- `StreamLifecycle::remove`. -/
def State.remove (s : State ι) (id : ι) : State ι :=
  { s with entries := Function.update s.entries id none }

/-- The call returns, having read `seen` and made no transition. -/
def Call.refuse (c : Call ι) (seen : Option StreamState) (e : LifecycleError ι) : Call ι :=
  { c with seen, phase := .returned (.error e) seen }

/-- What a call does with the state it reads. -/
def Call.read (c : Call ι) (seen : Option StreamState) : Call ι :=
  match c.stops, seen with
  | _, none => c.refuse seen (.notFound c.id)
  | true, some .starting | true, some .running => { c with seen, phase := .toStopping }
  | true, some .stopped => c.refuse seen (.alreadyStopped c.id)
  | true, some .error => c.refuse seen (.inError c.id)
  | true, some .stopping => c.refuse seen (.alreadyStopping c.id)
  | false, some .stopped | false, some .error => { c with seen, phase := .toStarting }
  | false, some state => c.refuse seen (.cannotRestart c.id state)

/-- A transition of a call: it goes on with the phase `rest`, or returns. -/
def State.attempt (s : State ι) (n : ℕ) (c : Call ι) (next : StreamState)
    (rest : Option (Phase ι)) : State ι :=
  match s.transition c.id next with
  | .ok t => t.setCall n { c with
      made := c.made ++ [next], phase := rest.getD (.returned (.ok ()) (t.state c.id)) }
  | .error e => s.setCall n { c with phase := .returned (.error e) (s.state c.id) }

/-- The next critical section of a call. -/
def State.advance (s : State ι) (n : ℕ) (c : Call ι) : Option (State ι) :=
  match c.phase with
  | .entered => some (s.setCall n (c.read (s.state c.id)))
  | .toStopping => some (s.attempt n c .stopping (some .toStopped))
  | .toStopped => some (s.attempt n c .stopped none)
  | .toStarting => some (s.attempt n c .starting none)
  | .returned _ _ => none

/-- What can happen. -/
inductive Event (ι : Type)
  /-- `start` -/
  | start (id : ι)
  /-- `transition` -/
  | transition (id : ι) (next : StreamState)
  /-- `remove` -/
  | remove (id : ι)
  /-- `subscribe` -/
  | subscribe (id : ι)
  /-- A handle is cloned. -/
  | cloneHandle (ch : ℕ)
  /-- A handle is asked for a receiver. -/
  | subscribeHandle (ch : ℕ)
  /-- A handle is dropped. -/
  | dropHandle (ch : ℕ)
  /-- A receiver is dropped. -/
  | dropReceiver (ch : ℕ)
  /-- A call of `stop`, or of `restart`. -/
  | call (stops : Bool) (id : ι)
  /-- Call `n` goes on. -/
  | run (n : ℕ)

/-- The step of an event. -/
def step (s : State ι) : Event ι → Option (State ι)
  | .start id => some (s.start id)
  | .transition id next => some ((s.transition id next).toOption.getD s)
  | .remove id => some (s.remove id)
  | .subscribe id =>
      match s.entries id with
      | none => some s
      | some (_, ch) =>
          let c := s.channels ch
          some (s.setChannel ch { c with receivers := c.receivers + 1 })
  | .cloneHandle ch =>
      let c := s.channels ch
      if 0 < c.handles then some (s.setChannel ch { c with handles := c.handles + 1 }) else none
  | .subscribeHandle ch =>
      let c := s.channels ch
      if 0 < c.handles then some (s.setChannel ch { c with receivers := c.receivers + 1 }) else none
  | .dropHandle ch =>
      let c := s.channels ch
      if 0 < c.handles then some (s.setChannel ch { c with handles := c.handles - 1 }) else none
  | .dropReceiver ch =>
      let c := s.channels ch
      if 0 < c.receivers then some (s.setChannel ch { c with receivers := c.receivers - 1 }) else none
  | .call stops id => some { s.setCall s.nextCall { stops, id } with nextCall := s.nextCall + 1 }
  | .run n => (s.calls n).bind (s.advance n)

/-! ### What a step does to the streams -/

variable {s t u : State ι}

/-- The streams and their channels are the same. -/
def SameStreams (s t : State ι) : Prop :=
  t.entries = s.entries ∧ t.channels = s.channels ∧ t.nextChannel = s.nextChannel

omit [DecidableEq ι] in
theorem sameStreams_refl (s : State ι) : SameStreams s s := ⟨rfl, rfl, rfl⟩

/-- What a step does to the streams and their channels. -/
inductive Moves (s t : State ι) : Prop
  | started (id : ι) (h : SameStreams (s.start id) t)
  | entered (id : ι) (self : StreamState) (ch : ℕ) (next : StreamState)
      (hentry : s.entries id = some (self, ch)) (hallowed : self.canTransitionTo next = true)
      (h : SameStreams (s.enter id ch next) t)
  | removed (id : ι) (h : SameStreams (s.remove id) t)
  | watched (ch : ℕ) (c : Channel) (hvalue : c.value = (s.channels ch).value)
      (hhandles : 0 < c.handles → 0 < (s.channels ch).handles) (h : SameStreams (s.setChannel ch c) t)
  | stayed (h : SameStreams s t)

/-- **A transition that is made is allowed.** -/
theorem exists_of_transition {id : ι} {next : StreamState} (h : s.transition id next = .ok t) :
    ∃ self ch, s.entries id = some (self, ch) ∧ self.canTransitionTo next = true ∧
      t = s.enter id ch next := by
  unfold State.transition at h
  split at h
  · cases h
  · next self ch hentry =>
      split at h
      · next hallowed => exact ⟨self, ch, hentry, hallowed, (Except.ok.inj h).symm⟩
      · cases h

theorem moves_of_transition {id : ι} {next : StreamState} (h : s.transition id next = .ok t)
    (ht : SameStreams t u) : Moves s u := by
  obtain ⟨self, ch, hentry, hallowed, rfl⟩ := exists_of_transition h
  exact .entered id self ch next hentry hallowed ht

theorem moves_setChannel {ch : ℕ} {c : Channel} (hvalue : c.value = (s.channels ch).value)
    (hhandles : 0 < c.handles → 0 < (s.channels ch).handles) : Moves s (s.setChannel ch c) :=
  .watched ch c hvalue hhandles (sameStreams_refl _)

theorem moves_attempt (s : State ι) (n : ℕ) (c : Call ι) (next : StreamState)
    (rest : Option (Phase ι)) : Moves s (s.attempt n c next rest) := by
  unfold State.attempt
  split
  · next t ht => exact moves_of_transition ht (sameStreams_refl t)
  · exact .stayed (sameStreams_refl s)

theorem moves_advance {n : ℕ} {c : Call ι} (h : s.advance n c = some t) : Moves s t := by
  unfold State.advance at h
  split at h
  · cases h
    exact .stayed (sameStreams_refl s)
  · cases h
    exact moves_attempt s n c _ _
  · cases h
    exact moves_attempt s n c _ _
  · cases h
    exact moves_attempt s n c _ _
  · cases h

/-- **What a step does to the streams.** -/
theorem moves_of_step {e : Event ι} (h : step s e = some t) : Moves s t := by
  cases e with
  | start id =>
      cases h
      exact .started id (sameStreams_refl _)
  | transition id next =>
      cases h
      cases hnext : s.transition id next with
      | error e => exact .stayed (sameStreams_refl s)
      | ok t => exact moves_of_transition hnext (sameStreams_refl t)
  | remove id =>
      cases h
      exact .removed id (sameStreams_refl _)
  | subscribe id =>
      rw [step] at h
      split at h
      · cases h
        exact .stayed (sameStreams_refl s)
      · cases h
        exact moves_setChannel rfl fun hpos => hpos
  | cloneHandle ch =>
      obtain ⟨hpos, h⟩ := Option.ite_none_right_eq_some.1 h
      cases h
      exact moves_setChannel rfl fun _ => hpos
  | subscribeHandle ch =>
      obtain ⟨-, h⟩ := Option.ite_none_right_eq_some.1 h
      cases h
      exact moves_setChannel rfl fun hpos => hpos
  | dropHandle ch =>
      obtain ⟨hpos, h⟩ := Option.ite_none_right_eq_some.1 h
      cases h
      exact moves_setChannel rfl fun _ => hpos
  | dropReceiver ch =>
      obtain ⟨-, h⟩ := Option.ite_none_right_eq_some.1 h
      cases h
      exact moves_setChannel rfl fun hpos => hpos
  | call stops id =>
      cases h
      exact .stayed (sameStreams_refl s)
  | run n =>
      obtain ⟨c, -, h⟩ := Option.bind_eq_some_iff.1 h
      exact moves_advance h

/-! ### What the handles observe -/

/-- The channel of a stream is its own, and has its state while a handle watches it. -/
structure Synced (s : State ι) : Prop where
  fresh : ∀ id self ch, s.entries id = some (self, ch) → ch < s.nextChannel
  unwatched : ∀ ch, s.nextChannel ≤ ch → (s.channels ch).handles = 0
  distinct : ∀ id id' self self' ch, s.entries id = some (self, ch) →
    s.entries id' = some (self', ch) → id = id'
  agrees : ∀ id self ch, s.entries id = some (self, ch) → 0 < (s.channels ch).handles →
    (s.channels ch).value = self

/-- The changes of the value that a handle watches are transitions that are allowed. -/
def Observed (s t : State ι) : Prop :=
  ∀ ch, 0 < (s.channels ch).handles → (t.channels ch).value = (s.channels ch).value ∨
    (s.channels ch).value.canTransitionTo (t.channels ch).value = true

omit [DecidableEq ι] in
theorem synced_initial : Synced ({} : State ι) where
  fresh := by intro id self ch h; cases h
  unwatched := fun _ _ => rfl
  distinct := by intro id id' self self' ch h; cases h
  agrees := by intro id self ch h; cases h

omit [DecidableEq ι] in
theorem Synced.of_sameStreams (hs : Synced s) (h : SameStreams s t) : Synced t := by
  obtain ⟨hentries, hchannels, hnext⟩ := h
  refine ⟨?_, ?_, ?_, ?_⟩
  · rw [hentries, hnext]
    exact hs.fresh
  · rw [hchannels, hnext]
    exact hs.unwatched
  · rw [hentries]
    exact hs.distinct
  · rw [hentries, hchannels]
    exact hs.agrees

theorem send_handles (c : Channel) (next : StreamState) : (c.send next).handles = c.handles := by
  unfold Channel.send
  split <;> rfl

theorem send_value {c : Channel} (h : 0 < c.handles) (next : StreamState) :
    (c.send next).value = next := by
  rw [Channel.send, if_pos (Nat.add_pos_left h _)]

/-- A stream has another state, or another channel, or there is none. -/
theorem entries_update {id id' : ι} {entry : Option (StreamState × ℕ)} {self : StreamState} {ch : ℕ}
    (h : Function.update s.entries id entry id' = some (self, ch)) :
    (id' = id ∧ entry = some (self, ch)) ∨ (id' ≠ id ∧ s.entries id' = some (self, ch)) :=
  update_cases (p := (· = some (self, ch))) h

theorem entries_start {id id' : ι} {self : StreamState} {ch : ℕ}
    (h : (s.start id).entries id' = some (self, ch)) :
    (id' = id ∧ self = .starting ∧ ch = s.nextChannel) ∨
      (id' ≠ id ∧ s.entries id' = some (self, ch)) := by
  refine (entries_update h).imp_left fun ⟨hid, heq⟩ => ⟨hid, ?_⟩
  cases heq
  exact ⟨rfl, rfl⟩

theorem entries_enter {id id' : ι} {self next : StreamState} {ch ch' : ℕ}
    (h : (s.enter id ch next).entries id' = some (self, ch')) :
    (id' = id ∧ self = next ∧ ch' = ch) ∨ (id' ≠ id ∧ s.entries id' = some (self, ch')) := by
  refine (entries_update h).imp_left fun ⟨hid, heq⟩ => ⟨hid, ?_⟩
  cases heq
  exact ⟨rfl, rfl⟩

theorem synced_start (hs : Synced s) (id : ι) : Synced (s.start id) := by
  have hold : ∀ {id' self ch}, s.entries id' = some (self, ch) → ch ≠ s.nextChannel :=
    fun h => Nat.ne_of_lt (hs.fresh _ _ _ h)
  refine ⟨?_, ?_, ?_, ?_⟩
  · intro id' self ch h
    rcases entries_start h with ⟨-, -, rfl⟩ | ⟨-, h⟩
    · exact Nat.lt_succ_self _
    · exact Nat.lt_succ_of_lt (hs.fresh _ _ _ h)
  · intro ch hch
    exact (congrArg Channel.handles (Function.update_of_ne (Nat.ne_of_gt hch) _ _)).trans
      (hs.unwatched ch (Nat.le_of_lt hch))
  · intro i j self self' ch hi hj
    rcases entries_start hi with ⟨hi, -, hch⟩ | ⟨-, hi⟩ <;>
      rcases entries_start hj with ⟨hj, -, hch'⟩ | ⟨-, hj⟩
    · exact hi.trans hj.symm
    · exact absurd hch (hold hj)
    · exact absurd hch' (hold hi)
    · exact hs.distinct _ _ _ _ _ hi hj
  · intro id' self ch h
    rcases entries_start h with ⟨-, rfl, rfl⟩ | ⟨-, h⟩
    · exact fun _ => congrArg Channel.value (Function.update_self (f := s.channels) ..)
    · have hch : (s.start id).channels ch = s.channels ch := Function.update_of_ne (hold h) _ _
      rw [hch]
      exact hs.agrees _ _ _ h

theorem synced_enter (hs : Synced s) {id : ι} {self next : StreamState} {ch : ℕ}
    (hentry : s.entries id = some (self, ch)) : Synced (s.enter id ch next) := by
  have hhandles : ∀ c, ((s.enter id ch next).channels c).handles = (s.channels c).handles :=
    proj_update Channel.handles (send_handles _ _)
  refine ⟨?_, ?_, ?_, ?_⟩
  · intro id' self' ch' h
    rcases entries_enter h with ⟨-, -, rfl⟩ | ⟨-, h⟩
    · exact hs.fresh _ _ _ hentry
    · exact hs.fresh _ _ _ h
  · intro c hc
    rw [hhandles]
    exact hs.unwatched c hc
  · intro i j self₁ self₂ c hi hj
    rcases entries_enter hi with ⟨rfl, -, rfl⟩ | ⟨-, hi⟩ <;>
      rcases entries_enter hj with ⟨hj, -, hch⟩ | ⟨-, hj⟩
    · exact hj.symm
    · exact hs.distinct _ _ _ _ _ hentry hj
    · exact hj ▸ hs.distinct _ _ _ _ _ hi (hch ▸ hentry)
    · exact hs.distinct _ _ _ _ _ hi hj
  · intro id' self' ch' h hpos
    rw [hhandles] at hpos
    rcases entries_enter h with ⟨-, rfl, rfl⟩ | ⟨hne, h⟩
    · exact (congrArg Channel.value (Function.update_self (f := s.channels) ..)).trans
        (send_value hpos self')
    · have hch : ch' ≠ ch := fun heq => hne (hs.distinct _ _ _ _ _ h (heq ▸ hentry))
      exact (congrArg Channel.value (Function.update_of_ne hch _ _)).trans (hs.agrees _ _ _ h hpos)

theorem synced_remove (hs : Synced s) (id : ι) : Synced (s.remove id) := by
  have hold : ∀ {id' self ch}, (s.remove id).entries id' = some (self, ch) →
      s.entries id' = some (self, ch) := by
    intro id' self ch h
    rcases entries_update h with ⟨-, h⟩ | ⟨-, h⟩
    · cases h
    · exact h
  exact ⟨fun _ _ _ h => hs.fresh _ _ _ (hold h), hs.unwatched,
    fun _ _ _ _ _ hi hj => hs.distinct _ _ _ _ _ (hold hi) (hold hj),
    fun _ _ _ h => hs.agrees _ _ _ (hold h)⟩

omit [DecidableEq ι] in
theorem synced_setChannel (hs : Synced s) {ch : ℕ} {c : Channel}
    (hvalue : c.value = (s.channels ch).value)
    (hhandles : 0 < c.handles → 0 < (s.channels ch).handles) : Synced (s.setChannel ch c) := by
  have hpos : ∀ {ch'}, 0 < ((s.setChannel ch c).channels ch').handles →
      0 < (s.channels ch').handles := by
    intro ch' h
    change 0 < (Function.update s.channels ch c ch').handles at h
    by_cases heq : ch' = ch
    · rw [heq, Function.update_self] at h
      exact heq ▸ hhandles h
    · rwa [Function.update_of_ne heq] at h
  refine ⟨hs.fresh, ?_, hs.distinct, ?_⟩
  · intro ch' hch
    by_contra hne
    exact absurd (hs.unwatched ch' hch) (Nat.pos_iff_ne_zero.1 (hpos (Nat.pos_of_ne_zero hne)))
  · intro id self ch' h hwatched
    exact (proj_update Channel.value hvalue ch').trans (hs.agrees _ _ _ h (hpos hwatched))

/-- **The channel of a stream is its own, and has its state while a handle watches it.** -/
theorem synced_step {e : Event ι} (hs : Synced s) (h : step s e = some t) : Synced t := by
  cases moves_of_step h with
  | started id h => exact (synced_start hs id).of_sameStreams h
  | entered id self ch next hentry _ h => exact (synced_enter hs hentry).of_sameStreams h
  | removed id h => exact (synced_remove hs id).of_sameStreams h
  | watched ch c hvalue hhandles h => exact (synced_setChannel hs hvalue hhandles).of_sameStreams h
  | stayed h => exact hs.of_sameStreams h

/-- **What a handle observes is a transition that is allowed.** -/
theorem observed_step {e : Event ι} (hs : Synced s) (h : step s e = some t) : Observed s t := by
  intro ch hpos
  cases moves_of_step h with
  | started id h =>
      rw [h.2.1]
      have hne : ch ≠ s.nextChannel := fun heq => by
        rw [hs.unwatched ch (Nat.le_of_eq heq.symm)] at hpos
        exact absurd hpos (Nat.lt_irrefl 0)
      exact .inl (congrArg Channel.value (Function.update_of_ne hne _ _))
  | entered id self ch' next hentry hallowed h =>
      rw [h.2.1]
      by_cases heq : ch = ch'
      · subst heq
        have hvalue : ((s.enter id ch next).channels ch).value = next :=
          (congrArg Channel.value (Function.update_self ..)).trans (send_value hpos next)
        rw [hvalue, hs.agrees id self ch hentry hpos]
        exact .inr hallowed
      · exact .inl (congrArg Channel.value (Function.update_of_ne heq _ _))
  | removed id h =>
      rw [h.2.1]
      exact .inl rfl
  | watched ch' c hvalue _ h =>
      rw [h.2.1]
      exact .inl (proj_update Channel.value hvalue ch)
  | stayed h =>
      rw [h.2.1]
      exact .inl rfl

end Lifecycle
