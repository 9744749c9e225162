/-
**The outputs of a hub.**

`StreamHub` in `crates/streaming/src/hub.rs` keeps its outputs in a map behind a lock, together with
a map of stop signals.  For each output a task is spawned that takes the output out of the first map,
starts it, and then sends it the frames of a broadcast channel until it is told to stop.  The
outputs are added by `add_output` and `try_add_output` on the hub and by `add_output_at_runtime` on
a handle of it; `run` spawns the tasks of the outputs that are there already.

The model is a step machine in which one step is what a caller or a task does under one acquisition
of the lock, or one outcome of something that it waits for.  The methods of the hub borrow it
mutably, so at most one of them is under way; the methods of a handle can overlap with everything.
Beside the two maps the state records what has happened: which outputs were added, removed and
started, and which frames they received.

Main definitions:

* `HubOutputs.Registry` — the two maps, the output tasks and the history;
* `HubOutputs.Registry.insert`, `remove`, `spawn`, `taskStep` — what is done to it;
* `HubOutputs.Registry.TaskEffect` — what an output task does to it in one step;
* `HubOutputs.Hub`, `HubOutputs.step` — the hub with its callers;
* `HubOutputs.FanOut` — who owns an output, and what it may receive;
* `HubOutputs.Sound` — the steps that respect this.

Main results:

* `HubOutputs.step_cases`, `HubOutputs.Registry.taskStep_cases` — what a step does to the registry;
* `HubOutputs.registry_step` — the rule for what all operations on the registry keep;
* `HubOutputs.owned_passes` — **no output is started twice, or after it was removed from the map**;
* `HubOutputs.fanOut_iff` — **ownership is respected in a run exactly when all its steps are
  sound**.
-/

import MibeeEye.StepMachine

set_option relaxedAutoImplicit false
set_option autoImplicit false

namespace HubOutputs

open Machine

/-! ### The registry -/

/-- `OutputId`: a random UUID, which is new whenever one is made. -/
abbrev OutputId := ℕ

/-- Where an output task is. -/
inductive Phase
  /-- It was spawned. -/
  | waiting
  /-- It did not find its output, and returned. -/
  | gone
  /-- In `output.start()`. -/
  | starting
  /-- In `select!`; the receiver of the channel will get frame `next`. -/
  | receiving (next : ℕ)
  /-- In `output.send_frame(&frame)`. -/
  | sending (next : ℕ)
  /-- In `output.stop()`. -/
  | stopping
  /-- It had taken its output, and has ended. -/
  | ended
  deriving DecidableEq, Repr

/-- The task has taken its output. -/
def Phase.owns : Phase → Bool
  | .waiting | .gone => false
  | .starting | .receiving _ | .sending _ | .stopping | .ended => true

/-- A task of `spawn_output_task`, or of the loop in `run`. -/
structure Task where
  id : OutputId
  phase : Phase
  deriving DecidableEq, Repr

/-- The maps of `HubInner` by their keys, the tasks, the broadcast channel by the number of frames
sent, and the history. -/
structure Registry where
  outputs : List OutputId := []
  outputStop : List OutputId := []
  tasks : List Task := []
  frames : ℕ := 0
  /-- Outputs that were added. -/
  added : List OutputId := []
  /-- Outputs that were removed, each with the number of frames sent before. -/
  removals : List (OutputId × ℕ) := []
  /-- Outputs that were removed before a task had taken them. -/
  removedWaiting : List OutputId := []
  /-- Outputs whose `start()` was called, once for each call. -/
  started : List OutputId := []
  /-- Frames that `send_frame` was called with. -/
  received : List (OutputId × ℕ) := []
  deriving DecidableEq, Repr

/-- Capacity of the broadcast channel. -/
def channelCapacity : ℕ := 64

/-- What an output task does next. -/
inductive Action
  /-- It takes its output out of the map. -/
  | take
  | startOk
  | startErr
  /-- `global_stop.changed()` -/
  | globalStop
  /-- `output_stop.changed()` -/
  | outputStop
  /-- `rx.recv()` gives a frame. -/
  | recv
  /-- `rx.recv()` gives `Lagged`. -/
  | lagged
  /-- `rx.recv()` gives `Closed`. -/
  | closed
  | sendOk
  | sendErr
  /-- `output.stop()` returns. -/
  | stopReturns
  deriving DecidableEq, Repr

namespace Registry

/-- `add_output` and `add_output_at_runtime` under the lock. -/
def insert (r : Registry) (id : OutputId) : Registry :=
  { r with
    outputs := id :: r.outputs
    outputStop := id :: r.outputStop
    added := id :: r.added }

/-- `remove_output` of the hub and of its handle. -/
def remove (r : Registry) (id : OutputId) : Registry :=
  { r with
    outputs := r.outputs.filter (· ≠ id)
    outputStop := r.outputStop.filter (· ≠ id)
    removals := if id ∈ r.added then (id, r.frames) :: r.removals else r.removals
    removedWaiting :=
      if id ∈ r.added ∧ id ∉ r.started then id :: r.removedWaiting else r.removedWaiting }

/-- `tokio::spawn` of an output task. -/
def spawn (r : Registry) (id : OutputId) : Registry :=
  { r with tasks := r.tasks ++ [⟨id, .waiting⟩] }

/-- `broadcast_tx.send(frame)` -/
def broadcast (r : Registry) : Registry := { r with frames := r.frames + 1 }

/-- Task `i`, which is `t`, goes to a phase. -/
def setPhase (r : Registry) (i : ℕ) (t : Task) (p : Phase) : Registry :=
  { r with tasks := r.tasks.set i ⟨t.id, p⟩ }

/-- Task `i`, which is `t`, takes its output and calls its `start()`. -/
def take (r : Registry) (i : ℕ) (t : Task) : Registry :=
  { r.setPhase i t .starting with
    outputs := r.outputs.filter (· ≠ t.id)
    started := t.id :: r.started }

/-- Task `i`, which is `t`, calls `send_frame`. -/
def receive (r : Registry) (i : ℕ) (t : Task) (next : ℕ) : Registry :=
  { r.setPhase i t (.sending next) with received := (t.id, next) :: r.received }

/-- One step of task `i`.  The signal of an output is up when its sender is no longer in the map:
it has been sent, or the task was given the receiver of a dropped sender.  A branch of `select!`
that is ready may be chosen even if others are. -/
def taskStep (r : Registry) (stopped : Bool) (i : ℕ) (a : Action) : Option Registry :=
  match r.tasks[i]? with
  | none => none
  | some t =>
    match t.phase, a with
    | .waiting, .take =>
      if t.id ∈ r.outputs then some (r.take i t) else some (r.setPhase i t .gone)
    | .starting, .startOk => some (r.setPhase i t (.receiving r.frames))
    | .starting, .startErr => some (r.setPhase i t .ended)
    | .receiving _, .globalStop => if stopped then some (r.setPhase i t .stopping) else none
    | .receiving _, .outputStop =>
      if t.id ∈ r.outputStop then none else some (r.setPhase i t .stopping)
    | .receiving next, .recv =>
      if next < r.frames ∧ r.frames ≤ next + channelCapacity then some (r.receive i t next)
      else none
    | .receiving next, .lagged =>
      if next + channelCapacity < r.frames
      then some (r.setPhase i t (.receiving (r.frames - channelCapacity)))
      else none
    | .receiving _, .closed => some (r.setPhase i t .stopping)
    | .sending next, .sendOk => some (r.setPhase i t (.receiving (next + 1)))
    | .sending _, .sendErr => some (r.setPhase i t .stopping)
    | .stopping, .stopReturns => some (r.setPhase i t .ended)
    | _, _ => none

/-- The outputs for which `remove_output` has completed. -/
def removed (r : Registry) : List OutputId := r.removals.map Prod.fst

end Registry

/-! ### The hub and its callers -/

/-- `max_outputs` -/
def maxOutputs : ℕ := 16

/-- The method that borrows the hub, and how far it is. -/
inductive Call
  | idle
  /-- `try_add_output` has passed its checks. -/
  | checked
  /-- `add_output` has found the hub running, and is about to spawn a task. -/
  | adding (id : OutputId)
  /-- `run` has marked the hub as running. -/
  | marked
  /-- `run` has collected the outputs, and has these left to spawn tasks for. -/
  | spawning (ids : List OutputId)
  deriving DecidableEq, Repr

/-- The source, until `run` takes it, and then its task. -/
inductive SourceState
  | held
  | taken
  | live
  | ended
  deriving DecidableEq, Repr

/-- A hub, with the calls of `add_output_at_runtime` that have not spawned their task. -/
structure Hub where
  registry : Registry := {}
  running : Bool := false
  stopped : Bool := false
  source : SourceState := .held
  call : Call := .idle
  attaching : List OutputId := []
  deriving DecidableEq, Repr

/-- `StreamHub::new` -/
def Hub.new : Hub := {}

/-- What can happen. -/
inductive Event
  | addOutput (id : OutputId)
  /-- `try_add_output` checks the map and the permits that are available. -/
  | tryAddOutput (permits : ℕ)
  /-- `try_add_output` calls `add_output`. -/
  | tryInsert (id : OutputId)
  /-- `add_output` spawns its task. -/
  | spawnAdded
  | addOutputAtRuntime (id : OutputId)
  /-- `add_output_at_runtime` spawns its task. -/
  | spawnAttached (id : OutputId)
  | removeOutput (id : OutputId)
  /-- `run` takes the source and marks the hub as running. -/
  | run
  /-- `run` reads the keys of the map, in some order. -/
  | runCollect (ids : List OutputId)
  /-- `run` spawns the next output task. -/
  | runSpawn
  /-- `run` spawns the source task and returns. -/
  | runReturns
  /-- `stop`, or the hub is dropped. -/
  | stop
  /-- The source task sends a frame. -/
  | broadcast
  | sourceEnds
  | task (i : ℕ) (a : Action)
  deriving DecidableEq, Repr

/-- The output that an event puts in the map. -/
def Event.inserts : Event → Option OutputId
  | .addOutput id | .tryInsert id | .addOutputAtRuntime id => some id
  | _ => none

namespace Hub

/-- The checks of `try_add_output`. -/
def tryAddOutput (h : Hub) (permits : ℕ) : Except String Unit :=
  if h.registry.outputs.length ≥ maxOutputs then
    .error ("503: Maximum outputs (" ++ toString maxOutputs ++ ") reached for this stream")
  else if permits = 0 then .error "503: All stream slots are exhausted. Try again later."
  else .ok ()

/-- `add_output` up to the end of its block. -/
def addOutput (h : Hub) (id : OutputId) : Option Hub :=
  if id ∈ h.registry.added then none
  else some { h with
    registry := h.registry.insert id
    call := if h.running then .adding id else .idle }

end Hub

/-- One step. -/
def step (h : Hub) : Event → Option Hub
  | .addOutput id => if h.call = .idle then h.addOutput id else none
  | .tryAddOutput permits =>
    if h.call = .idle then
      match h.tryAddOutput permits with
      | .error _ => some h
      | .ok () => some { h with call := .checked }
    else none
  | .tryInsert id => if h.call = .checked then h.addOutput id else none
  | .spawnAdded =>
    match h.call with
    | .adding id => some { h with registry := h.registry.spawn id, call := .idle }
    | _ => none
  | .addOutputAtRuntime id =>
    if id ∈ h.registry.added then none
    else some { h with registry := h.registry.insert id, attaching := id :: h.attaching }
  | .spawnAttached id =>
    if id ∈ h.attaching then
      some { h with registry := h.registry.spawn id, attaching := h.attaching.erase id }
    else none
  | .removeOutput id => some { h with registry := h.registry.remove id }
  | .run =>
    if h.call = .idle ∧ h.source = .held then
      some { h with running := true, source := .taken, call := .marked }
    else none
  | .runCollect ids =>
    if h.call = .marked ∧ ids.isPerm h.registry.outputs then
      some { h with call := .spawning ids }
    else none
  | .runSpawn =>
    match h.call with
    | .spawning (id :: ids) =>
      some { h with registry := h.registry.spawn id, call := .spawning ids }
    | _ => none
  | .runReturns =>
    if h.call = .spawning [] then some { h with source := .live, call := .idle } else none
  | .stop => some { h with stopped := true }
  | .broadcast =>
    if h.source = .live then some { h with registry := h.registry.broadcast } else none
  | .sourceEnds => if h.source = .live then some { h with source := .ended } else none
  | .task i a => (h.registry.taskStep h.stopped i a).map fun r => { h with registry := r }

/-! ### What a step does -/

namespace Registry

/-- What task `i`, which is `t`, does to the registry: it takes its output, receives a frame, ends, or
only goes on. -/
inductive TaskEffect (r : Registry) (i : ℕ) (t : Task) : Action → Registry → Prop
  | take (hp : t.phase = .waiting) (hid : t.id ∈ r.outputs) : TaskEffect r i t .take (r.take i t)
  | receive (next : ℕ) (hp : t.phase = .receiving next) (hn : next < r.frames) :
      TaskEffect r i t .recv (r.receive i t next)
  | finish {a : Action} (ha : a = .startErr ∨ a = .stopReturns) (hp : t.phase.owns = true) :
      TaskEffect r i t a (r.setPhase i t .ended)
  | goOn {a : Action} (p : Phase) (ha : a ≠ .recv ∧ a ≠ .startErr ∧ a ≠ .stopReturns)
      (howns : p.owns = t.phase.owns) (hp : p ≠ .ended) : TaskEffect r i t a (r.setPhase i t p)

theorem taskStep_cases {r r' : Registry} {stopped : Bool} {i : ℕ} {a : Action}
    (h : r.taskStep stopped i a = some r') :
    ∃ t, r.tasks[i]? = some t ∧ t.phase ≠ .ended ∧ r.TaskEffect i t a r' := by
  rw [taskStep] at h
  cases ht : r.tasks[i]? with
  | none => simp [ht] at h
  | some t =>
      obtain ⟨id, p⟩ := t
      refine ⟨_, rfl, ?_⟩
      rw [ht] at h
      dsimp only at h ⊢
      cases p with
      | waiting =>
          cases a <;> dsimp only at h <;> try cases h
          split at h
          · rename_i hid
            cases h
            exact ⟨nofun, TaskEffect.take rfl hid⟩
          · cases h
            exact ⟨nofun, TaskEffect.goOn .gone ⟨nofun, nofun, nofun⟩ rfl nofun⟩
      | starting =>
          cases a <;> dsimp only at h <;> cases h
          · exact ⟨nofun, TaskEffect.goOn (.receiving _) ⟨nofun, nofun, nofun⟩ rfl nofun⟩
          · exact ⟨nofun, TaskEffect.finish (.inl rfl) rfl⟩
      | receiving next =>
          cases a <;> dsimp only at h
          case recv =>
            split at h
            · rename_i hn
              cases h
              exact ⟨nofun, TaskEffect.receive next rfl hn.1⟩
            · cases h
          case globalStop =>
            split at h <;> cases h
            exact ⟨nofun, TaskEffect.goOn .stopping ⟨nofun, nofun, nofun⟩ rfl nofun⟩
          case outputStop =>
            split at h <;> cases h
            exact ⟨nofun, TaskEffect.goOn .stopping ⟨nofun, nofun, nofun⟩ rfl nofun⟩
          case lagged =>
            split at h <;> cases h
            exact ⟨nofun, TaskEffect.goOn (.receiving (r.frames - channelCapacity))
              ⟨nofun, nofun, nofun⟩ rfl nofun⟩
          case closed =>
            cases h
            exact ⟨nofun, TaskEffect.goOn .stopping ⟨nofun, nofun, nofun⟩ rfl nofun⟩
          all_goals cases h
      | sending next =>
          cases a <;> dsimp only at h <;> cases h
          · exact ⟨nofun, TaskEffect.goOn (.receiving _) ⟨nofun, nofun, nofun⟩ rfl nofun⟩
          · exact ⟨nofun, TaskEffect.goOn .stopping ⟨nofun, nofun, nofun⟩ rfl nofun⟩
      | stopping =>
          cases a <;> dsimp only at h <;> cases h
          exact ⟨nofun, TaskEffect.finish (.inr rfl) rfl⟩
      | gone => cases a <;> cases h
      | ended => cases a <;> cases h

end Registry

/-- What `add_output` does under the lock. -/
theorem addOutput_cases {h h' : Hub} {id : OutputId} (hs : h.addOutput id = some h') :
    id ∉ h.registry.added ∧ h'.registry = h.registry.insert id ∧ h'.call ≠ .checked := by
  rw [Hub.addOutput] at hs
  split at hs
  · cases hs
  · rename_i hid
    cases hs
    refine ⟨hid, rfl, ?_⟩
    dsimp only
    split <;> nofun

/-- What a step does to the registry. -/
theorem step_cases {h h' : Hub} {e : Event} (hs : step h e = some h') :
    h'.registry = h.registry ∨
    (∃ id, e.inserts = some id ∧ id ∉ h.registry.added ∧
      h'.registry = h.registry.insert id) ∨
    (∃ id, h'.registry = h.registry.spawn id) ∨
    (∃ id, h'.registry = h.registry.remove id) ∨
    h'.registry = h.registry.broadcast ∨
    (∃ i a, e = .task i a ∧ h.registry.taskStep h.stopped i a = some h'.registry) := by
  cases e with
  | addOutput id =>
      rw [step] at hs
      split at hs
      · obtain ⟨hid, hr, -⟩ := addOutput_cases hs
        exact .inr (.inl ⟨id, rfl, hid, hr⟩)
      · cases hs
  | tryAddOutput permits =>
      rw [step] at hs
      split at hs
      · split at hs <;> cases hs <;> exact .inl rfl
      · cases hs
  | tryInsert id =>
      rw [step] at hs
      split at hs
      · obtain ⟨hid, hr, -⟩ := addOutput_cases hs
        exact .inr (.inl ⟨id, rfl, hid, hr⟩)
      · cases hs
  | spawnAdded =>
      rw [step] at hs
      split at hs <;> cases hs
      exact .inr (.inr (.inl ⟨_, rfl⟩))
  | addOutputAtRuntime id =>
      rw [step] at hs
      split at hs
      · cases hs
      · rename_i hid
        cases hs
        exact .inr (.inl ⟨id, rfl, hid, rfl⟩)
  | spawnAttached id =>
      rw [step] at hs
      split at hs <;> cases hs
      exact .inr (.inr (.inl ⟨id, rfl⟩))
  | removeOutput id =>
      cases hs
      exact .inr (.inr (.inr (.inl ⟨id, rfl⟩)))
  | runSpawn =>
      rw [step] at hs
      split at hs <;> cases hs
      exact .inr (.inr (.inl ⟨_, rfl⟩))
  | broadcast =>
      rw [step] at hs
      split at hs <;> cases hs
      exact .inr (.inr (.inr (.inr (.inl rfl))))
  | task i a =>
      obtain ⟨r, hr, rfl⟩ := Option.map_eq_some_iff.1 hs
      exact .inr (.inr (.inr (.inr (.inr ⟨i, a, rfl, hr⟩))))
  | stop =>
      cases hs
      exact .inl rfl
  | _ =>
      rw [step] at hs
      split at hs <;> cases hs
      exact .inl rfl

/-- **The rule for registries**: what the operations on the registry keep is kept by every step. -/
theorem registry_step {I : Registry → Prop} {h h' : Hub} {e : Event} (hs : step h e = some h')
    (hI : I h.registry) (hinsert : ∀ id, id ∉ h.registry.added → I (h.registry.insert id))
    (hspawn : ∀ id, I (h.registry.spawn id)) (hremove : ∀ id, I (h.registry.remove id))
    (hbroadcast : I h.registry.broadcast)
    (htask : ∀ i a r, e = .task i a → h.registry.taskStep h.stopped i a = some r → I r) :
    I h'.registry := by
  obtain hr | ⟨id, -, hid, hr⟩ | ⟨id, hr⟩ | ⟨id, hr⟩ | hr | ⟨i, a, he, hr⟩ := step_cases hs
  · rw [hr]
    exact hI
  · rw [hr]
    exact hinsert id hid
  · rw [hr]
    exact hspawn id
  · rw [hr]
    exact hremove id
  · rw [hr]
    exact hbroadcast
  · exact htask i a _ he hr

/-! ### What holds in every state -/

/-- An output that was added waits in the map, was taken by a task, or was removed. -/
structure Registry.Consistent (r : Registry) : Prop where
  outputs_nodup : r.outputs.Nodup
  outputs_added : ∀ id ∈ r.outputs, id ∈ r.added
  outputs_unstarted : ∀ id ∈ r.outputs, id ∉ r.started
  stop_or_removed : ∀ id ∈ r.added, id ∈ r.outputStop ∨ id ∈ r.removed
  removed_added : ∀ id ∈ r.removed, id ∈ r.added
  removed_absent : ∀ id ∈ r.removed, id ∉ r.outputs ∧ id ∉ r.outputStop
  started_added : ∀ id ∈ r.started, id ∈ r.added
  started_nodup : r.started.Nodup
  waiting_unstarted : ∀ id ∈ r.removedWaiting, id ∈ r.removed ∧ id ∉ r.started
  owner_started : ∀ t ∈ r.tasks, t.phase.owns = true → t.id ∈ r.started
  received_lt : ∀ p ∈ r.received, p.2 < r.frames

namespace Registry

theorem consistent_insert {r : Registry} {id : OutputId} (hc : r.Consistent) (hid : id ∉ r.added) :
    (r.insert id).Consistent where
  outputs_nodup := List.nodup_cons.2 ⟨fun h => hid (hc.outputs_added id h), hc.outputs_nodup⟩
  outputs_added := by
    intro x hx
    rcases List.mem_cons.1 hx with rfl | hx
    · exact List.mem_cons_self
    · exact List.mem_cons_of_mem _ (hc.outputs_added x hx)
  outputs_unstarted := by
    intro x hx
    rcases List.mem_cons.1 hx with rfl | hx
    · exact fun h => hid (hc.started_added x h)
    · exact hc.outputs_unstarted x hx
  stop_or_removed := by
    intro x hx
    rcases List.mem_cons.1 hx with rfl | hx
    · exact .inl List.mem_cons_self
    · exact (hc.stop_or_removed x hx).imp_left (List.mem_cons_of_mem _)
  removed_added := fun x hx => List.mem_cons_of_mem _ (hc.removed_added x hx)
  removed_absent := by
    intro x hx
    have hne : x ≠ id := fun h => hid (h ▸ hc.removed_added x hx)
    obtain ⟨ho, hs⟩ := hc.removed_absent x hx
    exact ⟨List.not_mem_cons_of_ne_of_not_mem hne ho, List.not_mem_cons_of_ne_of_not_mem hne hs⟩
  started_added := fun x hx => List.mem_cons_of_mem _ (hc.started_added x hx)
  started_nodup := hc.started_nodup
  waiting_unstarted := hc.waiting_unstarted
  owner_started := hc.owner_started
  received_lt := hc.received_lt

theorem mem_removed_remove {r : Registry} {id x : OutputId} :
    x ∈ (r.remove id).removed ↔ x ∈ r.removed ∨ x = id ∧ id ∈ r.added := by
  unfold removed remove
  dsimp only
  split <;> simp [*, or_comm]

theorem consistent_remove {r : Registry} (hc : r.Consistent) (id : OutputId) :
    (r.remove id).Consistent where
  outputs_nodup := hc.outputs_nodup.filter _
  outputs_added := fun x hx => hc.outputs_added x (List.mem_filter.1 hx).1
  outputs_unstarted := fun x hx => hc.outputs_unstarted x (List.mem_filter.1 hx).1
  stop_or_removed := by
    intro x hx
    rw [mem_removed_remove]
    by_cases hxid : x = id
    · exact .inr (.inr ⟨hxid, hxid ▸ hx⟩)
    · rcases hc.stop_or_removed x hx with h | h
      · exact .inl (List.mem_filter.2 ⟨h, by simpa using hxid⟩)
      · exact .inr (.inl h)
  removed_added := by
    intro x hx
    rcases mem_removed_remove.1 hx with h | ⟨rfl, h⟩
    · exact hc.removed_added x h
    · exact h
  removed_absent := by
    intro x hx
    simp only [remove, List.mem_filter, decide_eq_true_eq, not_and, not_not]
    rcases mem_removed_remove.1 hx with h | ⟨rfl, -⟩
    · obtain ⟨ho, hs⟩ := hc.removed_absent x h
      exact ⟨fun h => absurd h ho, fun h => absurd h hs⟩
    · exact ⟨fun _ => rfl, fun _ => rfl⟩
  started_added := hc.started_added
  started_nodup := hc.started_nodup
  waiting_unstarted := by
    intro x hx
    rw [mem_removed_remove]
    by_cases hid : id ∈ r.added ∧ id ∉ r.started
    · rw [remove, if_pos hid] at hx
      rcases List.mem_cons.1 hx with rfl | hx
      · exact ⟨.inr ⟨rfl, hid.1⟩, hid.2⟩
      · exact (hc.waiting_unstarted x hx).imp_left .inl
    · rw [remove, if_neg hid] at hx
      exact (hc.waiting_unstarted x hx).imp_left .inl
  owner_started := hc.owner_started
  received_lt := hc.received_lt

theorem consistent_spawn {r : Registry} (hc : r.Consistent) (id : OutputId) :
    (r.spawn id).Consistent where
  __ := hc
  owner_started := by
    intro t ht hown
    rcases List.mem_append.1 ht with ht | ht
    · exact hc.owner_started t ht hown
    · rw [List.mem_singleton.1 ht] at hown
      cases hown

theorem consistent_broadcast {r : Registry} (hc : r.Consistent) : r.broadcast.Consistent where
  __ := hc
  received_lt := fun p hp => Nat.lt_succ_of_lt (hc.received_lt p hp)

/-- A task goes on. -/
theorem consistent_setPhase {r : Registry} {i : ℕ} {t : Task} {p : Phase} (hc : r.Consistent)
    (ht : r.tasks[i]? = some t) (hp : p.owns = true → t.phase.owns = true) :
    (r.setPhase i t p).Consistent where
  __ := hc
  owner_started := by
    intro u hu hown
    rcases List.mem_or_eq_of_mem_set hu with hu | rfl
    · exact hc.owner_started u hu hown
    · exact hc.owner_started t (List.mem_of_getElem? ht) (hp hown)

/-- A task takes its output. -/
theorem consistent_take {r : Registry} {i : ℕ} {t : Task} (hc : r.Consistent)
    (hid : t.id ∈ r.outputs) : (r.take i t).Consistent where
  outputs_nodup := hc.outputs_nodup.filter _
  outputs_added := fun x hx => hc.outputs_added x (List.mem_filter.1 hx).1
  outputs_unstarted := by
    intro x hx
    obtain ⟨hx, hne⟩ := List.mem_filter.1 hx
    exact List.not_mem_cons_of_ne_of_not_mem (by simpa using hne) (hc.outputs_unstarted x hx)
  stop_or_removed := hc.stop_or_removed
  removed_added := hc.removed_added
  removed_absent := fun x hx => (hc.removed_absent x hx).imp_left
    fun h hx => h (List.mem_filter.1 hx).1
  started_added := by
    intro x hx
    rcases List.mem_cons.1 hx with rfl | hx
    · exact hc.outputs_added _ hid
    · exact hc.started_added x hx
  started_nodup := List.nodup_cons.2 ⟨hc.outputs_unstarted _ hid, hc.started_nodup⟩
  waiting_unstarted := by
    intro x hx
    obtain ⟨hrem, hst⟩ := hc.waiting_unstarted x hx
    -- an output that was removed is not there to be taken
    have hne : x ≠ t.id := fun h => (hc.removed_absent x hrem).1 (h ▸ hid)
    exact ⟨hrem, List.not_mem_cons_of_ne_of_not_mem hne hst⟩
  owner_started := by
    intro u hu hown
    rcases List.mem_or_eq_of_mem_set hu with hu | rfl
    · exact List.mem_cons_of_mem _ (hc.owner_started u hu hown)
    · exact List.mem_cons_self
  received_lt := hc.received_lt

theorem consistent_taskStep {r r' : Registry} {stopped : Bool} {i : ℕ} {a : Action}
    (hc : r.Consistent) (h : r.taskStep stopped i a = some r') : r'.Consistent := by
  obtain ⟨t, ht, -, heffect⟩ := taskStep_cases h
  cases heffect with
  | take hp hid => exact consistent_take hc hid
  | receive next hp hn =>
      refine { consistent_setPhase (p := .sending next) hc ht (fun _ => by rw [hp]; rfl) with
        received_lt := ?_ }
      intro x hx
      rcases List.mem_cons.1 hx with rfl | hx
      · exact hn
      · exact hc.received_lt x hx
  | finish ha hp => exact consistent_setPhase hc ht fun _ => hp
  | goOn p ha howns hp => exact consistent_setPhase hc ht fun h => howns ▸ h

end Registry

theorem consistent_step {h h' : Hub} {e : Event} (hc : h.registry.Consistent)
    (hs : step h e = some h') : h'.registry.Consistent :=
  registry_step hs hc (fun _ hid => Registry.consistent_insert hc hid)
    (Registry.consistent_spawn hc) (Registry.consistent_remove hc)
    (Registry.consistent_broadcast hc) (fun _ _ _ _ hr => Registry.consistent_taskStep hc hr)

theorem consistent_new : Hub.new.registry.Consistent := by
  constructor <;> simp [Hub.new, Registry.removed]

theorem consistent_passes {es : List Event} {u : Hub} (h : Passes step Hub.new es u) :
    u.registry.Consistent :=
  passes_invariant (P := fun _ => True) (I := fun u => u.registry.Consistent)
    (fun _ _ _ _ hc hs => consistent_step hc hs) (fun _ _ => trivial) consistent_new h

/-! ### Ownership -/

/-- No output is started twice, or after it was removed from the map; one that was removed receives
no frame that is sent later; and one that was removed, or whose task has ended, is in neither
map. -/
structure FanOut (r : Registry) : Prop where
  started_once : r.started.Nodup
  removed_unstarted : ∀ id ∈ r.removedWaiting, id ∉ r.started
  no_late_frame : ∀ id n k, (id, n) ∈ r.received → (id, k) ∈ r.removals → n < k
  ended_absent : ∀ t ∈ r.tasks, t.phase = .ended → t.id ∉ r.outputs ∧ t.id ∉ r.outputStop
  removed_absent : ∀ id ∈ r.removed, id ∉ r.outputs ∧ id ∉ r.outputStop

/-- A task that took its output ends only after the output was removed, and `select!` does not give
it a frame that was sent after that. -/
def Sound (r : Registry) : Event → Prop
  | .task i .startErr => ∀ t, r.tasks[i]? = some t → t.id ∈ r.removed
  | .task i .stopReturns => ∀ t, r.tasks[i]? = some t → t.id ∈ r.removed
  | .task i .recv => ∀ t next, r.tasks[i]? = some t → t.phase = .receiving next →
      ∀ k, (t.id, k) ∈ r.removals → next < k
  | _ => True

/-- **No output is started twice, or after it was removed from the map**, and a removed output is in
neither map. -/
theorem owned_passes {es : List Event} {u : Hub} (h : Passes step Hub.new es u) :
    u.registry.started.Nodup ∧
    (∀ id ∈ u.registry.removedWaiting, id ∉ u.registry.started) ∧
    ∀ id ∈ u.registry.removed, id ∉ u.registry.outputs ∧ id ∉ u.registry.outputStop := by
  have hc := consistent_passes h
  exact ⟨hc.started_nodup, fun id hid => (hc.waiting_unstarted id hid).2, hc.removed_absent⟩

namespace Registry

/-- What `FanOut` adds to what always holds. -/
structure Quiet (r : Registry) : Prop where
  no_late_frame : ∀ id n k, (id, n) ∈ r.received → (id, k) ∈ r.removals → n < k
  ended_removed : ∀ t ∈ r.tasks, t.phase = .ended → t.id ∈ r.removed

theorem fanOut_iff_quiet {r : Registry} (hc : r.Consistent) : FanOut r ↔ r.Quiet := by
  constructor
  · intro hf
    refine ⟨hf.no_late_frame, ?_⟩
    intro t ht hended
    -- its output was added, so its stop signal is in the map or it was removed
    have hadded := hc.started_added _ (hc.owner_started t ht (by rw [hended]; rfl))
    exact (hc.stop_or_removed _ hadded).resolve_left (hf.ended_absent t ht hended).2
  · intro hq
    exact ⟨hc.started_nodup, fun id hid => (hc.waiting_unstarted id hid).2, hq.no_late_frame,
      fun t ht hended => hc.removed_absent _ (hq.ended_removed t ht hended), hc.removed_absent⟩

theorem quiet_insert {r : Registry} (hq : r.Quiet) (id : OutputId) : (r.insert id).Quiet :=
  ⟨hq.no_late_frame, hq.ended_removed⟩

theorem quiet_broadcast {r : Registry} (hq : r.Quiet) : r.broadcast.Quiet :=
  ⟨hq.no_late_frame, hq.ended_removed⟩

theorem quiet_spawn {r : Registry} (hq : r.Quiet) (id : OutputId) : (r.spawn id).Quiet where
  no_late_frame := hq.no_late_frame
  ended_removed := by
    intro t ht hended
    rcases List.mem_append.1 ht with ht | ht
    · exact hq.ended_removed t ht hended
    · rw [List.mem_singleton.1 ht] at hended
      cases hended

theorem quiet_remove {r : Registry} (hc : r.Consistent) (hq : r.Quiet) (id : OutputId) :
    (r.remove id).Quiet where
  no_late_frame := by
    intro x n k hn hk
    simp only [remove] at hk
    split at hk
    · rcases List.mem_cons.1 hk with hk | hk
      · cases hk
        exact hc.received_lt _ hn
      · exact hq.no_late_frame x n k hn hk
    · exact hq.no_late_frame x n k hn hk
  ended_removed := fun t ht hended => mem_removed_remove.2 (.inl (hq.ended_removed t ht hended))

theorem quiet_setPhase {r : Registry} {i : ℕ} {t : Task} {p : Phase} (hq : r.Quiet)
    (hp : p = .ended → t.id ∈ r.removed) : (r.setPhase i t p).Quiet where
  no_late_frame := hq.no_late_frame
  ended_removed := by
    intro u hu hended
    rcases List.mem_or_eq_of_mem_set hu with hu | rfl
    · exact hq.ended_removed u hu hended
    · exact hp hended

theorem quiet_receive {r : Registry} {i : ℕ} {t : Task} {next : ℕ} (hq : r.Quiet)
    (hn : ∀ k, (t.id, k) ∈ r.removals → next < k) : (r.receive i t next).Quiet where
  no_late_frame := by
    intro x n k hx hk
    rcases List.mem_cons.1 hx with hx | hx
    · cases hx
      exact hn k hk
    · exact hq.no_late_frame x n k hx hk
  ended_removed := (quiet_setPhase (p := .sending next) hq nofun).ended_removed

end Registry

/-- A sound step keeps ownership. -/
theorem quiet_step {h h' : Hub} {e : Event} (hc : h.registry.Consistent) (hq : h.registry.Quiet)
    (hsound : Sound h.registry e) (hs : step h e = some h') : h'.registry.Quiet := by
  refine registry_step hs hq (fun id _ => Registry.quiet_insert hq id) (Registry.quiet_spawn hq)
    (Registry.quiet_remove hc hq) (Registry.quiet_broadcast hq) ?_
  rintro i a r rfl hr
  obtain ⟨t, ht, -, heffect⟩ := Registry.taskStep_cases hr
  cases heffect with
  | take hp hid =>
      have hstart := Registry.quiet_setPhase (i := i) (t := t) (p := .starting) hq nofun
      exact ⟨hstart.no_late_frame, hstart.ended_removed⟩
  | receive next hp hn => exact Registry.quiet_receive hq (hsound t next ht hp)
  | finish ha hp =>
      refine Registry.quiet_setPhase hq fun _ => ?_
      rcases ha with rfl | rfl <;> exact hsound t ht
  | goOn p ha howns hp => exact Registry.quiet_setPhase hq fun h => absurd h hp

/-- A step after which ownership is respected was sound. -/
theorem sound_of_quiet {h h' : Hub} {e : Event} (hq : h'.registry.Quiet)
    (hs : step h e = some h') : Sound h.registry e := by
  cases e with
  | task i a =>
      obtain ⟨r, hr, rfl⟩ := Option.map_eq_some_iff.1 hs
      obtain ⟨t, ht, -, heffect⟩ := Registry.taskStep_cases hr
      cases heffect with
      | take hp hid => trivial
      | receive next hp hn =>
          intro u n hu hun k hk
          cases ht.symm.trans hu
          cases hp.symm.trans hun
          exact hq.no_late_frame t.id next k List.mem_cons_self hk
      | finish ha hp =>
          have hend : t.id ∈ h.registry.removed := by
            have hi : i < h.registry.tasks.length := (List.getElem?_eq_some_iff.1 ht).1
            exact hq.ended_removed ⟨t.id, .ended⟩ (List.mem_set hi _) rfl
          rcases ha with rfl | rfl
          all_goals
            intro u hu
            cases ht.symm.trans hu
            exact hend
      | goOn p ha howns hp =>
          obtain ⟨hrecv, hstart, hstop⟩ := ha
          cases a <;> trivial
  | _ => trivial

/-- **In every run, ownership is respected in all states exactly when all steps are sound.** -/
theorem fanOut_iff (es : List Event) :
    (∀ u, Passes step Hub.new es u → FanOut u.registry) ↔
    ∀ u e v, Occurs step Hub.new es u e → step u e = some v → Sound u.registry e := by
  constructor
  · intro hf u e v ho hv
    have hp := ho.passes hv
    exact sound_of_quiet ((Registry.fanOut_iff_quiet (consistent_passes hp)).1 (hf v hp)) hv
  · intro hsound u hu
    rw [Registry.fanOut_iff_quiet (consistent_passes hu)]
    refine passes_induction (I := fun u => u.registry.Quiet) ?_ ⟨nofun, nofun⟩ hu
    intro v e w ho hq hs
    exact quiet_step (consistent_passes ho.passes_before) hq (hsound v e w ho hs) hs

/-- An output whose `start()` fails. -/
def failedStart : List Event :=
  [.addOutput 1, .run, .runCollect [1], .runSpawn, .runReturns, .task 0 .take, .task 0 .startErr]

/-- A frame is sent after an output was removed, and its task is given the frame rather than the
signal. -/
def lateFrame : List Event :=
  [.addOutput 1, .run, .runCollect [1], .runSpawn, .runReturns, .task 0 .take, .task 0 .startOk,
    .removeOutput 1, .broadcast, .task 0 .recv]

/-- Ownership is not respected in every run: the stop signal of an output stays in its map after its
task has ended, and an output receives a frame that was sent after it was removed. -/
theorem not_fanOut_failedStart_lateFrame :
    (∃ u, Passes step Hub.new failedStart u ∧ ¬ FanOut u.registry) ∧
    ∃ u, Passes step Hub.new lateFrame u ∧ ¬ FanOut u.registry := by
  constructor
  · refine ⟨_, ⟨failedStart, List.prefix_refl _, rfl⟩, ?_⟩
    intro hf
    exact (hf.ended_absent ⟨1, .ended⟩ List.mem_cons_self rfl).2 List.mem_cons_self
  · refine ⟨_, ⟨lateFrame, List.prefix_refl _, rfl⟩, ?_⟩
    intro hf
    exact absurd (hf.no_late_frame 1 0 0 List.mem_cons_self List.mem_cons_self) (Nat.lt_irrefl 0)

end HubOutputs
