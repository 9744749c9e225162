/-
**Stream permits.**

`ResourceController` in `crates/streaming/src/resource.rs` is a semaphore with one permit for each
stream that may be active.  The source task of `StreamHub::run` in `crates/streaming/src/hub.rs`
waits for a permit before it starts its source.  The permit is bound in the pattern of a `match`
arm, and it is dropped where that arm ends, before the source is started; from then on the stream
runs without one.

The tasks of all hubs that share a controller run concurrently, so the model is a step machine
over their phases.  The arm is left in a step of its own: another thread may act between the
acquisition and the end of the arm.  The semaphore never gives out more permits than it has, and a
permit is released when it is dropped.

Main definitions:

* `StreamHub.ResourceController` — the semaphore and its size;
* `StreamHub.Phase` — where a source task is;
* `StreamHub.Event`, `StreamHub.step` — what the tasks, their sources and `stop` do;
* `StreamHub.Bounded` — the bound the controller is for.

Main results:

* `StreamHub.permits_add_holders` — no permit is lost or made;
* `StreamHub.bounded_iff` — the bound holds in a state exactly when no task is past the arm;
* `StreamHub.bounded_passes_iff` — **it holds throughout an execution exactly when no task leaves
  the arm**.
-/

import MibeeEye.StepMachine
import Mathlib.Data.Fintype.Card
import Mathlib.Algebra.BigOperators.Ring.Finset

set_option relaxedAutoImplicit false
set_option autoImplicit false

namespace StreamHub

open Machine

/-! ### The controller -/

/-- `ResourceController`: `new` panics on zero. -/
structure ResourceController where
  maxStreams : ℕ
  available : ℕ
  closed : Bool := false
  pos : 0 < maxStreams

/-- `ResourceController::new`. -/
def ResourceController.new (maxStreams : ℕ) (pos : 0 < maxStreams) : ResourceController :=
  { maxStreams, available := maxStreams, pos }

/-- A permit is taken from the semaphore, if there is one and it is not closed. -/
def ResourceController.tryAcquire (r : ResourceController) : Option ResourceController :=
  if r.closed = false ∧ 0 < r.available then some { r with available := r.available - 1 } else none

/-- A permit is dropped. -/
def ResourceController.release (r : ResourceController) : ResourceController :=
  { r with available := r.available + 1 }

/-! ### The source tasks -/

/-- Where the source task of a hub is. -/
inductive Phase
  /-- `run` has not been called. -/
  | idle
  /-- Waiting in `acquire`. -/
  | waiting
  /-- In the arm of the `match` that holds the permit. -/
  | inArm
  /-- In `source.start()`. -/
  | starting
  /-- In the main loop. -/
  | looping
  /-- In `source.stop()`. -/
  | stopping
  /-- The task has ended. -/
  | done
  deriving DecidableEq, Repr

/-- Between a successful acquisition and the end of the task. -/
def Phase.active : Phase → Bool
  | .inArm | .starting | .looping | .stopping => true
  | .idle | .waiting | .done => false

/-- Active, but past the arm that holds the permit. -/
def Phase.pastArm : Phase → Bool
  | .starting | .looping | .stopping => true
  | .idle | .waiting | .inArm | .done => false

/-- A hub: its source task, and whether it has been told to stop. -/
structure Hub where
  phase : Phase := .idle
  stopped : Bool := false
  deriving DecidableEq, Repr

/-- Hubs that share a controller. -/
structure World (ι : Type) where
  resource : ResourceController
  hubs : ι → Hub

/-- What can happen. -/
inductive Event (ι : Type)
  /-- `StreamHub::run` spawns the source task. -/
  | run (i : ι)
  /-- `acquire` returns a permit. -/
  | acquire (i : ι)
  /-- `acquire` fails: the semaphore is closed. -/
  | acquireFails (i : ι)
  /-- The arm of the `match` ends. -/
  | leaveArm (i : ι)
  /-- `source.start()` succeeds. -/
  | sourceStarts (i : ι)
  /-- `source.start()` fails. -/
  | sourceStartFails (i : ι)
  /-- `source.next_frame()` gives a frame, which is broadcast. -/
  | frame (i : ι)
  /-- `source.next_frame()` fails. -/
  | sourceFails (i : ι)
  /-- `StreamHub::stop` is called. -/
  | stop (i : ι)
  /-- The main loop sees the stop signal. -/
  | seesStop (i : ι)
  /-- `source.stop()` returns. -/
  | sourceStops (i : ι)
  /-- The semaphore is closed. -/
  | close

variable {ι : Type} [DecidableEq ι]

/-- The world after the task of hub `i` has moved on. -/
def World.move (w : World ι) (i : ι) (resource : ResourceController) (phase : Phase) : World ι where
  resource := resource
  hubs := Function.update w.hubs i { w.hubs i with phase }

/-- The task of hub `i` moves from one phase to another. -/
def World.goto (w : World ι) (i : ι) (source target : Phase) : Option (World ι) :=
  if (w.hubs i).phase = source then some (w.move i w.resource target) else none

/-- **One step.** -/
@[grind =] def step (w : World ι) : Event ι → Option (World ι)
  | .run i => w.goto i .idle .waiting
  | .acquire i =>
      if (w.hubs i).phase = .waiting then
        w.resource.tryAcquire.map fun resource => w.move i resource .inArm
      else none
  | .acquireFails i => if w.resource.closed then w.goto i .waiting .done else none
  | .leaveArm i =>
      -- the permit goes out of scope here
      if (w.hubs i).phase = .inArm then some (w.move i w.resource.release .starting) else none
  | .sourceStarts i => w.goto i .starting .looping
  | .sourceStartFails i => w.goto i .starting .done
  | .frame i => w.goto i .looping .looping
  | .sourceFails i => w.goto i .looping .stopping
  | .stop i =>
      some { w with hubs := Function.update w.hubs i { w.hubs i with stopped := true } }
  | .seesStop i => if (w.hubs i).stopped then w.goto i .looping .stopping else none
  | .sourceStops i => w.goto i .stopping .done
  | .close => some { w with resource := { w.resource with closed := true } }

/-- Hubs of which none has been started. -/
def World.initial (maxStreams : ℕ) (pos : 0 < maxStreams) : World ι where
  resource := .new maxStreams pos
  hubs := fun _ => {}

variable [Fintype ι]

/-- The number of hubs whose task is in a phase of a given kind. -/
def World.count (w : World ι) (p : Phase → Bool) : ℕ :=
  (Finset.univ.filter fun i => p (w.hubs i).phase = true).card

/-- **The bound the controller is for**: no more active streams than permits, and as many permits
available as are not accounted for by an active stream. -/
def Bounded (w : World ι) : Prop :=
  w.count Phase.active ≤ w.resource.maxStreams ∧
    w.resource.available = w.resource.maxStreams - w.count Phase.active

/-! ### Counting phases -/

/-- Hubs in the arm hold a permit. -/
def Phase.holds (p : Phase) : Bool := p == .inArm

theorem count_active (w : World ι) :
    w.count Phase.active = w.count Phase.holds + w.count Phase.pastArm := by
  have hdisjoint : Disjoint
      (Finset.univ.filter fun i => Phase.holds (w.hubs i).phase = true)
      (Finset.univ.filter fun i => Phase.pastArm (w.hubs i).phase = true) := by
    rw [Finset.disjoint_filter]
    intro i _ h
    cases hp : (w.hubs i).phase <;> simp [hp, Phase.holds, Phase.pastArm] at h ⊢
  rw [World.count, World.count, World.count, ← Finset.card_union_of_disjoint hdisjoint]
  congr 1
  ext i
  simp only [Finset.mem_filter, Finset.mem_univ, true_and, Finset.mem_union]
  cases (w.hubs i).phase <;> simp [Phase.active, Phase.holds, Phase.pastArm]

/-- **What a move changes in a count.** -/
theorem count_move (w : World ι) (i : ι) (r : ResourceController) (q : Phase) (p : Phase → Bool) :
    (w.move i r q).count p + (if p (w.hubs i).phase then 1 else 0)
      = w.count p + if p q then 1 else 0 := by
  have hcount : ∀ v : World ι, v.count p = ∑ j, if p (v.hubs j).phase then 1 else 0 := by
    intro v
    rw [World.count, Finset.card_filter]
  have hmove : (fun j => if p ((w.move i r q).hubs j).phase then 1 else 0)
      = Function.update (fun j => if p (w.hubs j).phase then 1 else 0) i (if p q then 1 else 0) := by
    funext j
    by_cases hj : j = i
    · subst hj
      simp [World.move]
    · simp [World.move, Function.update_of_ne hj]
  have hsplit := Finset.sum_update_of_mem (Finset.mem_univ i)
    (fun j => if p (w.hubs j).phase then 1 else 0) (if p q then 1 else 0)
  have hwhole := Finset.add_sum_erase Finset.univ
    (fun j => if p (w.hubs j).phase then 1 else 0) (Finset.mem_univ i)
  rw [hcount, hcount, hmove, hsplit, ← hwhole, Finset.sdiff_singleton_eq_erase]
  omega

/-- A move between two phases that count alike. -/
theorem count_move_of_eq {w : World ι} {i : ι} {r : ResourceController} {q : Phase}
    {p : Phase → Bool} (h : p (w.hubs i).phase = p q) : (w.move i r q).count p = w.count p := by
  have := count_move w i r q p
  rw [h] at this
  omega

theorem count_stop (w : World ι) (i : ι) (p : Phase → Bool) :
    ({ w with hubs := Function.update w.hubs i { w.hubs i with stopped := true } } : World ι).count p
      = w.count p := by
  have hphase : ∀ j, (Function.update w.hubs i { w.hubs i with stopped := true } j).phase
      = (w.hubs j).phase := by
    intro j
    by_cases hj : j = i
    · subst hj
      simp
    · rw [Function.update_of_ne hj]
  simp only [World.count, hphase]

/-! ### No permit is lost or made -/

/-- The available permits and those in an arm are all there are. -/
def PermitsAccounted (w : World ι) : Prop :=
  w.resource.available + w.count Phase.holds = w.resource.maxStreams

omit [Fintype ι] in
/-- What `goto` does. -/
theorem goto_eq_some {w w' : World ι} {i : ι} {q q' : Phase} (h : w.goto i q q' = some w') :
    (w.hubs i).phase = q ∧ w' = w.move i w.resource q' := by
  unfold World.goto at h
  split at h
  · rename_i hq
    exact ⟨hq, (Option.some.inj h).symm⟩
  · cases h

theorem accounted_goto {w w' : World ι} {i : ι} {q q' : Phase} (hw : PermitsAccounted w)
    (h : w.goto i q q' = some w') (hq : q.holds = q'.holds) : PermitsAccounted w' := by
  obtain ⟨hphase, rfl⟩ := goto_eq_some h
  unfold PermitsAccounted
  rw [count_move_of_eq (by rw [hphase, hq])]
  exact hw

/-- **One step keeps the account.** -/
theorem accounted_step {w w' : World ι} {e : Event ι} (hw : PermitsAccounted w)
    (h : step w e = some w') : PermitsAccounted w' := by
  cases e with
  | run i => exact accounted_goto hw h rfl
  | acquire i =>
      simp only [step] at h
      split at h
      · rename_i hphase
        obtain ⟨r, hr, rfl⟩ := Option.map_eq_some_iff.1 h
        simp only [ResourceController.tryAcquire] at hr
        split at hr
        · rename_i hfree
          cases hr
          have hcount := count_move w i { w.resource with available := w.resource.available - 1 }
            .inArm Phase.holds
          rw [hphase] at hcount
          simp only [Phase.holds] at hcount
          unfold PermitsAccounted at hw ⊢
          simp only [World.move] at hcount ⊢
          simp at hcount
          omega
        · cases hr
      · cases h
  | acquireFails i =>
      simp only [step] at h
      split at h
      · exact accounted_goto hw h rfl
      · cases h
  | leaveArm i =>
      simp only [step] at h
      split at h
      · rename_i hphase
        cases h
        have hcount := count_move w i w.resource.release .starting Phase.holds
        rw [hphase] at hcount
        unfold PermitsAccounted at hw ⊢
        simp [Phase.holds, World.move, ResourceController.release] at hcount hw ⊢
        omega
      · cases h
  | sourceStarts i => exact accounted_goto hw h rfl
  | sourceStartFails i => exact accounted_goto hw h rfl
  | frame i => exact accounted_goto hw h rfl
  | sourceFails i => exact accounted_goto hw h rfl
  | stop i =>
      cases h
      unfold PermitsAccounted
      rw [count_stop]
      exact hw
  | seesStop i =>
      simp only [step] at h
      split at h
      · exact accounted_goto hw h rfl
      · cases h
  | sourceStops i => exact accounted_goto hw h rfl
  | close =>
      cases h
      exact hw

/-- **No permit is lost or made**, in any execution. -/
theorem permits_add_holders {n : ℕ} {pos : 0 < n} {es : List (Event ι)} {w : World ι}
    (h : Passes step (World.initial n pos) es w) : PermitsAccounted w := by
  refine passes_invariant (P := fun _ => True) (fun _ _ _ _ hw hs => accounted_step hw hs)
    (fun _ _ => trivial) ?_ h
  simp [PermitsAccounted, World.initial, World.count, ResourceController.new, Phase.holds]

/-! ### Past the arm -/

/-- No task is past the arm. -/
def NonePast (w : World ι) : Prop := ∀ i, (w.hubs i).phase.pastArm = false

omit [DecidableEq ι] in
theorem count_pastArm_eq_zero {w : World ι} : w.count Phase.pastArm = 0 ↔ NonePast w := by
  rw [World.count, Finset.card_eq_zero, Finset.filter_eq_empty_iff]
  simp [NonePast]

/-- **The bound holds in a state exactly when no task is past the arm.** -/
theorem bounded_iff {w : World ι} (hw : PermitsAccounted w) : Bounded w ↔ NonePast w := by
  rw [← count_pastArm_eq_zero]
  unfold PermitsAccounted at hw
  unfold Bounded
  rw [count_active]
  omega

omit [Fintype ι] in
theorem nonePast_move {w : World ι} {i : ι} {r : ResourceController} {q : Phase} (hw : NonePast w)
    (hq : q.pastArm = false) : NonePast (w.move i r q) := by
  intro j
  by_cases hj : j = i
  · subst hj
    simpa [World.move] using hq
  · simpa [World.move, Function.update_of_ne hj] using hw j

omit [Fintype ι] in
theorem nonePast_goto {w w' : World ι} {i : ι} {q q' : Phase} (hw : NonePast w)
    (h : w.goto i q q' = some w') (hq : q.pastArm = false → q'.pastArm = false) : NonePast w' := by
  obtain ⟨hphase, rfl⟩ := goto_eq_some h
  refine nonePast_move hw (hq ?_)
  rw [← hphase]
  exact hw i

/-- The event is the end of an arm. -/
def Event.leavesArm : Event ι → Bool
  | .leaveArm _ => true
  | _ => false

omit [Fintype ι] in
/-- A task gets past the arm only by leaving it. -/
theorem nonePast_step {w w' : World ι} {e : Event ι} (he : e.leavesArm = false) (hw : NonePast w)
    (h : step w e = some w') : NonePast w' := by
  cases e with
  | run i => exact nonePast_goto hw h fun _ => rfl
  | acquire i =>
      simp only [step] at h
      split at h
      · obtain ⟨r, -, rfl⟩ := Option.map_eq_some_iff.1 h
        exact nonePast_move hw rfl
      · cases h
  | acquireFails i =>
      simp only [step] at h
      split at h
      · exact nonePast_goto hw h fun _ => rfl
      · cases h
  | leaveArm i => cases he
  | sourceStarts i => exact nonePast_goto hw h fun hq => by cases hq
  | sourceStartFails i => exact nonePast_goto hw h fun _ => rfl
  | frame i => exact nonePast_goto hw h id
  | sourceFails i => exact nonePast_goto hw h fun hq => by cases hq
  | stop i =>
      cases h
      intro j
      by_cases hj : j = i
      · subst hj
        simpa using hw j
      · simpa [Function.update_of_ne hj] using hw j
  | seesStop i =>
      simp only [step] at h
      split at h
      · exact nonePast_goto hw h fun hq => by cases hq
      · cases h
  | sourceStops i => exact nonePast_goto hw h fun _ => rfl
  | close =>
      cases h
      exact hw

/-- **The bound holds throughout an execution exactly when no task leaves the arm** in which it
holds its permit, that is, when no source is ever started. -/
theorem bounded_passes_iff {n : ℕ} {pos : 0 < n} {es : List (Event ι)} {w : World ι}
    (h : exec step (World.initial n pos) es = some w) :
    (∀ v, Passes step (World.initial n pos) es v → Bounded v) ↔ ∀ i, Event.leaveArm i ∉ es := by
  constructor
  · intro hbound i hi
    obtain ⟨u, v, -, hv, hstep⟩ := passes_of_mem h hi
    have hpast := (bounded_iff (permits_add_holders hv)).1 (hbound v hv) i
    simp only [step] at hstep
    split at hstep
    · cases hstep
      simp [World.move, Phase.pastArm] at hpast
    · cases hstep
  · intro hno v hv
    have hkind : ∀ e ∈ es, e.leavesArm = false := by
      intro e he
      cases e with
      | leaveArm i => exact absurd he (hno i)
      | run i => rfl
      | acquire i => rfl
      | acquireFails i => rfl
      | sourceStarts i => rfl
      | sourceStartFails i => rfl
      | frame i => rfl
      | sourceFails i => rfl
      | stop i => rfl
      | seesStop i => rfl
      | sourceStops i => rfl
      | close => rfl
    exact (bounded_iff (permits_add_holders hv)).2
      (passes_invariant (fun _ _ _ => nonePast_step) hkind (fun _ => rfl) hv)

/-- Two hubs and one permit: while neither leaves the arm, the second waits. -/
theorem bounded_passes_iff_waiting :
    ∃ w : World Bool, exec step (World.initial 1 (by decide)) [
        .run true, .run false, .acquire true] = some w ∧ Bounded w := by
  obtain ⟨w, hw⟩ : ∃ w, exec step (World.initial 1 (by decide) : World Bool)
      [.run true, .run false, .acquire true] = some w := ⟨_, rfl⟩
  exact ⟨w, hw, (bounded_passes_iff hw).2 (by simp) w ⟨_, List.prefix_refl _, hw⟩⟩

/-- Two hubs and one permit: both streams run, and the permit is available. -/
theorem two_streams_one_permit :
    ∃ w : World Bool, exec step (World.initial 1 (by decide)) [
        .run true, .acquire true, .leaveArm true, .sourceStarts true,
        .run false, .acquire false, .leaveArm false, .sourceStarts false] = some w ∧
      w.count Phase.active = 2 ∧ w.resource.available = 1 ∧ ¬ Bounded w := by
  refine ⟨_, rfl, by decide, by decide, ?_⟩
  rintro ⟨hle, -⟩
  revert hle
  decide

end StreamHub
