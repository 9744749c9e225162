/-
**Stopping a stream.**

What a call of `stop` owes, in any interleaving with other callers, and the runs in which it does.
`stop` accepts a stream that is starting, and the table of the transitions has no way from there to
`Stopping`; and another caller that comes between its critical sections makes it fail half-way.

Main definitions:

* `Lifecycle.Settled` — what a call of `stop` has done when it returns;
* `Lifecycle.Lawful` — this of all calls;
* `Lifecycle.meets` — the steps that find what `stop` relies on.

Main results:

* `Lifecycle.sound_advance` — **one critical section of a call**;
* `Lifecycle.lawful_of_meets` — **a run of such steps**.
-/

import MibeeEye.StreamLifecycle

set_option relaxedAutoImplicit false
set_option autoImplicit false

namespace Lifecycle

open Machine

variable {ι : Type}

/-! ### What is owed -/

/-- The states in which a stream can be stopped. -/
def Stoppable (seen : Option StreamState) : Prop := seen = some .starting ∨ seen = some .running

/-- **What a call of `stop` has done when it returns**: it has stopped a stream that it has found
starting or running; it has refused any other, and done nothing; and it has not failed half-way and
left the stream stopping. -/
structure Settled (c : Call ι) (result : Except (LifecycleError ι) Unit) (left : Option StreamState) :
    Prop where
  stops : Stoppable c.seen → result = .ok () ∧ left = some .stopped
  refuses : ¬ Stoppable c.seen → (∃ e, result = .error e) ∧ c.made = [] ∧ left = c.seen
  settles : (∃ e, result = .error e) → .stopping ∈ c.made → left ≠ some .stopping

/-- All calls of `stop` that have returned have done so. -/
def Lawful (s : State ι) : Prop :=
  ∀ n c result left, s.calls n = some c → c.stops = true → c.phase = .returned result left →
    Settled c result left

variable [DecidableEq ι]

/-- The stream is in a state from which `next` is allowed. -/
def State.allows (s : State ι) (id : ι) (next : StreamState) : Bool :=
  (s.state id).any fun self => self.canTransitionTo next

/-- What a critical section of `stop` relies on: that the stream is not starting when it is read, and
that the two transitions are allowed when they are made. -/
def Call.meets (s : State ι) (c : Call ι) : Bool :=
  match c.phase with
  | .entered => s.state c.id ≠ some .starting
  | .toStopping => s.allows c.id .stopping
  | .toStopped => s.allows c.id .stopped
  | .toStarting | .returned _ _ => true

/-- **The steps that find what `stop` relies on.** -/
def meets (s : State ι) : Event ι → Bool
  | .run n => (s.calls n).all fun c => !c.stops || c.meets s
  | _ => true

/-! ### One call -/

/-- What a call of `stop` has done so far. -/
def Sound (c : Call ι) : Prop :=
  match c.phase with
  | .entered => c.made = []
  | .toStopping => Stoppable c.seen ∧ c.made = []
  | .toStopped => Stoppable c.seen
  | .toStarting => False
  | .returned result left => Settled c result left

variable {s t : State ι} {c c' : Call ι} {n : ℕ}

/-- A transition that is allowed is made, and the call goes on. -/
theorem calls_attempt {next : StreamState} (h : s.allows c.id next = true) (n : ℕ)
    (rest : Option (Phase ι)) :
    (s.attempt n c next rest).calls = Function.update s.calls n (some { c with
      made := c.made ++ [next], phase := rest.getD (.returned (.ok ()) (some next)) }) := by
  unfold State.allows State.state at h
  cases hentry : s.entries c.id with
  | none =>
      rw [hentry] at h
      cases h
  | some entry =>
      rw [hentry] at h
      have htransition : s.transition c.id next = .ok (s.enter c.id entry.2 next) := by
        rw [State.transition, hentry]
        exact if_pos h
      have hstate : (s.enter c.id entry.2 next).state c.id = some next :=
        congrArg (Option.map Prod.fst) (Function.update_self (f := s.entries) ..)
      rw [State.attempt, htransition]
      show Function.update s.calls n _ = _
      rw [hstate]

omit [DecidableEq ι] in
theorem sound_refuse (c : Call ι) {seen : Option StreamState} (hseen : ¬ Stoppable seen)
    (hmade : c.made = []) (e : LifecycleError ι) : Sound (c.refuse seen e) :=
  ⟨fun h => absurd h hseen, fun _ => ⟨⟨e, rfl⟩, hmade, rfl⟩, fun _ hmem => by
    rw [show (c.refuse seen e).made = [] from hmade] at hmem
    cases hmem⟩

omit [DecidableEq ι] in
/-- What a call of `stop` does with the state it reads. -/
theorem sound_read (hstops : c.stops = true) (hmade : c.made = []) (seen : Option StreamState) :
    Sound (c.read seen) ∧ (c.read seen).stops = true := by
  unfold Call.read
  rw [hstops]
  rcases seen with _ | state
  · exact ⟨sound_refuse c (by simp [Stoppable]) hmade _, hstops⟩
  · cases state with
    | starting => exact ⟨⟨.inl rfl, hmade⟩, rfl⟩
    | running => exact ⟨⟨.inr rfl, hmade⟩, rfl⟩
    | stopping => exact ⟨sound_refuse c (by simp [Stoppable]) hmade _, hstops⟩
    | stopped => exact ⟨sound_refuse c (by simp [Stoppable]) hmade _, hstops⟩
    | error => exact ⟨sound_refuse c (by simp [Stoppable]) hmade _, hstops⟩

/-- **One critical section of a call** that finds what it relies on. -/
theorem sound_advance (hstops : c.stops = true) (hc : Sound c) (hmeets : c.meets s = true)
    (h : s.advance n c = some t) :
    ∃ c', t.calls = Function.update s.calls n (some c') ∧ Sound c' ∧ c'.stops = true := by
  unfold Sound at hc
  unfold Call.meets at hmeets
  unfold State.advance at h
  split at h
  · next hphase =>
      rw [hphase] at hc
      cases h
      exact ⟨_, rfl, sound_read hstops hc _⟩
  · next hphase =>
      rw [hphase] at hc hmeets
      cases h
      exact ⟨_, calls_attempt hmeets n _, hc.1, hstops⟩
  · next hphase =>
      rw [hphase] at hc hmeets
      cases h
      refine ⟨_, calls_attempt hmeets n _, ?_, hstops⟩
      exact ⟨fun _ => ⟨rfl, rfl⟩, fun hnot => absurd hc hnot, fun ⟨e, he⟩ => by cases he⟩
  · next hphase =>
      rw [hphase] at hc
      exact hc.elim
  · cases h

/-! ### All calls -/

/-- All calls of `stop` are sound. -/
def AllSound (s : State ι) : Prop := ∀ n c, s.calls n = some c → c.stops = true → Sound c

omit [DecidableEq ι] in
theorem AllSound.lawful (h : AllSound s) : Lawful s := by
  intro n c result left hc hstops hphase
  have hsound := h n c hc hstops
  unfold Sound at hsound
  rwa [hphase] at hsound

omit [DecidableEq ι] in
theorem AllSound.update (hs : AllSound s) (hcalls : t.calls = Function.update s.calls n (some c))
    (hc : c.stops = true → Sound c) : AllSound t := by
  intro k c' hk hstops
  rw [hcalls] at hk
  rcases update_cases (p := (· = some c')) hk with ⟨-, hk⟩ | ⟨-, hk⟩
  · cases hk
    exact hc hstops
  · exact hs k c' hk hstops

theorem calls_of_transition {id : ι} {next : StreamState} (h : s.transition id next = .ok t) :
    t.calls = s.calls := by
  obtain ⟨self, ch, -, -, rfl⟩ := exists_of_transition h
  rfl

/-- Whatever a critical section finds, it is of the same call. -/
theorem exists_calls_attempt (s : State ι) (n : ℕ) (c : Call ι) (next : StreamState)
    (rest : Option (Phase ι)) : ∃ c', (s.attempt n c next rest).calls =
      Function.update s.calls n (some c') ∧ c'.stops = c.stops := by
  unfold State.attempt
  split
  · next t ht =>
      refine ⟨{ c with
        made := c.made ++ [next]
        phase := rest.getD (.returned (.ok ()) (t.state c.id)) }, ?_, rfl⟩
      exact congrArg (Function.update · n _) (calls_of_transition ht)
  · exact ⟨_, rfl, rfl⟩

omit [DecidableEq ι] in
theorem stops_read (c : Call ι) (seen : Option StreamState) : (c.read seen).stops = c.stops := by
  unfold Call.read
  split <;> rfl

theorem exists_calls_advance (h : s.advance n c = some t) :
    ∃ c', t.calls = Function.update s.calls n (some c') ∧ c'.stops = c.stops := by
  unfold State.advance at h
  split at h
  · cases h
    exact ⟨_, rfl, stops_read c _⟩
  · cases h
    exact exists_calls_attempt s n c _ _
  · cases h
    exact exists_calls_attempt s n c _ _
  · cases h
    exact exists_calls_attempt s n c _ _
  · cases h

/-- The other events make no critical section of a call. -/
theorem calls_step {e : Event ι} (h : step s e = some t) :
    t.calls = s.calls ∨
    (∃ stops id, t.calls = Function.update s.calls s.nextCall (some { stops, id })) ∨
    ∃ n c, e = .run n ∧ s.calls n = some c ∧ s.advance n c = some t := by
  cases e with
  | start id =>
      cases h
      exact .inl rfl
  | transition id next =>
      cases h
      cases hnext : s.transition id next with
      | error e => exact .inl rfl
      | ok t => exact .inl (calls_of_transition hnext)
  | remove id =>
      cases h
      exact .inl rfl
  | subscribe id =>
      rw [step] at h
      split at h <;> cases h <;> exact .inl rfl
  | cloneHandle ch =>
      cases (Option.ite_none_right_eq_some.1 h).2
      exact .inl rfl
  | subscribeHandle ch =>
      cases (Option.ite_none_right_eq_some.1 h).2
      exact .inl rfl
  | dropHandle ch =>
      cases (Option.ite_none_right_eq_some.1 h).2
      exact .inl rfl
  | dropReceiver ch =>
      cases (Option.ite_none_right_eq_some.1 h).2
      exact .inl rfl
  | call stops id =>
      cases h
      exact .inr (.inl ⟨stops, id, rfl⟩)
  | run n =>
      obtain ⟨c, hc, h⟩ := Option.bind_eq_some_iff.1 h
      exact .inr (.inr ⟨n, c, rfl, hc, h⟩)

/-- **A step that finds what `stop` relies on keeps all calls sound.** -/
theorem allSound_step {e : Event ι} (hs : AllSound s) (hmeets : meets s e = true)
    (h : step s e = some t) : AllSound t := by
  rcases calls_step h with hcalls | ⟨stops, id, hcalls⟩ | ⟨n, c, rfl, hc, h⟩
  · intro k c hk hstops
    exact hs k c (hcalls ▸ hk) hstops
  · exact hs.update hcalls fun _ => rfl
  · cases hstops : c.stops with
    | false =>
        obtain ⟨c', hcalls, hc'⟩ := exists_calls_advance h
        refine hs.update hcalls fun hc => ?_
        rw [hc', hstops] at hc
        cases hc
    | true =>
        rw [meets, hc, Option.all_some, hstops] at hmeets
        obtain ⟨c', hcalls, hc', -⟩ := sound_advance hstops (hs n c hc hstops) hmeets h
        exact hs.update hcalls fun _ => hc'

/-! ### Runs -/

/-- **A run whose steps all find what `stop` relies on**: every call of `stop` that has returned has
done what it owes, and every change that a handle observes is a transition that is allowed. -/
theorem lawful_of_meets {events : List (Event ι)}
    (hmeets : ∀ u e, Occurs step {} events u e → meets u e = true) :
    (∀ t, Passes step {} events t → Lawful t) ∧
      ∀ u e v, Occurs step {} events u e → step u e = some v → Observed u v := by
  constructor
  · intro t ht
    refine AllSound.lawful (passes_induction (I := AllSound) ?_ ?_ ht)
    · exact fun u e v hocc hu hv => allSound_step hu (hmeets u e hocc) hv
    · intro n c hc
      cases hc
  · intro u e v hocc hv
    exact observed_step (occurs_invariant (fun _ _ _ => synced_step) synced_initial hocc) hv

/-- A stream is started, runs and is stopped, while its handle is there. -/
def stopWhileRunning : List (Event ℕ) :=
  [.start 7, .transition 7 .running, .call true 7, .run 0, .run 0, .run 0]

theorem lawful_of_meets_stopWhileRunning :
    ∃ t, exec step {} stopWhileRunning = some t ∧ Lawful t ∧ t.state 7 = some .stopped := by
  refine ⟨_, rfl, ?_, rfl⟩
  refine (lawful_of_meets ?_).1 _ ⟨stopWhileRunning, List.prefix_refl _, rfl⟩
  exact forall_occurs_of_along (p := meets) (by decide)

/-- A stream is stopped while it is starting. -/
def stopWhileStarting : List (Event ℕ) := [.start 7, .call true 7, .run 0, .run 0]

/-- **`stop` fails for a stream that is starting**, and leaves it so. -/
theorem not_lawful_stopWhileStarting :
    ∃ t, exec step {} stopWhileStarting = some t ∧ t.state 7 = some .starting ∧ ¬ Lawful t := by
  refine ⟨_, rfl, rfl, fun h => ?_⟩
  have hsettled := h 0 _ (.error (.invalid 7 .starting .stopping)) (some .starting) rfl rfl rfl
  cases (hsettled.stops (.inl rfl)).2

end Lifecycle
