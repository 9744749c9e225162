/-
**Starting and stopping the outputs of a stream.**

`StreamManager::create_stream` in `crates/web/src/stream_manager.rs` gives the hub of a stream up to
three outputs: one for the RTSP server, one that pushes over RTMP, one that records into files.  It
calls `start()` of the last two itself, and attaches them when that succeeds.  The task that the hub
runs for an output, in `crates/streaming/src/hub.rs`, calls `start()` of every output it has taken.
Each call of `FileOutput::start` that succeeds increments the `recording_active` gauge, and each call
of `FileOutput::stop` decrements it.

The model adds to the hubs of many streams what `create_stream` does before they run, and the one
gauge that they share.

Main definitions:

* `StreamManager.StreamOutputs`, `StreamManager.Recorders` — the outputs of a stream; all streams with
  the gauge;
* `StreamManager.LifeEvent`, `StreamManager.lifeStep` — what `create_stream` and the hubs do;
* `StreamManager.Balanced` — starts, stops and the gauge are as they should be;
* `StreamManager.StartsFresh` — a task does not take an output that is started already.

Main results:

* `HubOutputs.soleOwner_step` — two tasks of a hub have never taken the same output;
* `StreamManager.balanced_iff` — **starts, stops and the gauge are balanced throughout a run exactly
  when no task takes an output that `create_stream` has started**;
* `StreamManager.balanced_of_unstarted` — so they are while there is neither RTMP push nor recording.
-/

import MibeeEye.HubOutputs
import Mathlib.Data.Int.Notation

set_option relaxedAutoImplicit false
set_option autoImplicit false

namespace HubOutputs

open Machine

/-! ### The task that has taken an output -/

namespace Registry

/-- Two tasks have not taken the same output, and only an output that was taken is sent frames. -/
structure SoleOwner (r : Registry) : Prop where
  consistent : r.Consistent
  owner : ∀ (i j : ℕ) (t u : Task), r.tasks[i]? = some t → r.tasks[j]? = some u →
    t.phase.owns = true → u.phase.owns = true → t.id = u.id → i = j
  received : ∀ p ∈ r.received, p.1 ∈ r.started

/-- The tasks after one of them has gone to another phase. -/
theorem getElem?_setPhase {r : Registry} {i : ℕ} {t : Task} {p : Phase}
    (ht : r.tasks[i]? = some t) {j : ℕ} {u : Task} (hu : (r.setPhase i t p).tasks[j]? = some u) :
    (j = i ∧ u = ⟨t.id, p⟩) ∨ (j ≠ i ∧ r.tasks[j]? = some u) := by
  by_cases hj : i = j
  · subst hj
    obtain ⟨hi, -⟩ := List.getElem?_eq_some_iff.1 ht
    rw [setPhase, List.getElem?_set_self hi] at hu
    exact .inl ⟨rfl, (Option.some.inj hu).symm⟩
  · rw [setPhase, List.getElem?_set_ne hj] at hu
    exact .inr ⟨fun h => hj h.symm, hu⟩

/-- A task that goes to another phase has taken its output as before, or takes it now. -/
theorem owner_setPhase {r : Registry} {i : ℕ} {t : Task} {p : Phase} (hr : r.SoleOwner)
    (ht : r.tasks[i]? = some t)
    (hp : p.owns = true → t.phase.owns = true ∨ t.id ∉ r.started) :
    ∀ (j k : ℕ) (u v : Task), (r.setPhase i t p).tasks[j]? = some u →
      (r.setPhase i t p).tasks[k]? = some v → u.phase.owns = true → v.phase.owns = true →
        u.id = v.id → j = k := by
  have hother : ∀ (k : ℕ) (v : Task), r.tasks[k]? = some v → v.phase.owns = true → p.owns = true →
      t.id = v.id → i = k := by
    intro k v hv hvowns hpowns hid
    rcases hp hpowns with howns | hfresh
    · exact hr.owner i k t v ht hv howns hvowns hid
    · rw [hid] at hfresh
      exact absurd (hr.consistent.owner_started v (List.mem_of_getElem? hv) hvowns) hfresh
  intro j k u v hu hv huowns hvowns hid
  rcases getElem?_setPhase ht hu with ⟨rfl, rfl⟩ | ⟨hj, hu'⟩
  · rcases getElem?_setPhase ht hv with ⟨rfl, rfl⟩ | ⟨hk, hv'⟩
    · rfl
    · exact hother k v hv' hvowns huowns hid
  · rcases getElem?_setPhase ht hv with ⟨rfl, rfl⟩ | ⟨hk, hv'⟩
    · exact (hother j u hu' huowns hvowns hid.symm).symm
    · exact hr.owner j k u v hu' hv' huowns hvowns hid

/-- The tasks that have taken an output, after one of them has gone to another phase. -/
theorem SoleOwner.mem_setPhase {r : Registry} {i : ℕ} {t u : Task} {p : Phase} (hr : r.SoleOwner)
    (ht : r.tasks[i]? = some t) (hu : u ∈ (r.setPhase i t p).tasks) (howns : u.phase.owns = true) :
    u = ⟨t.id, p⟩ ∨ u ∈ r.tasks ∧ (t.phase.owns = true → u.id ≠ t.id) := by
  obtain ⟨j, hj⟩ := List.mem_iff_getElem?.1 hu
  rcases getElem?_setPhase ht hj with ⟨-, rfl⟩ | ⟨hne, hj'⟩
  · exact .inl rfl
  · refine .inr ⟨List.mem_of_getElem? hj', fun htowns hid => hne ?_⟩
    exact hr.owner j i u t hj' ht howns htowns hid

/-- **A step of a task keeps the owners apart.** -/
theorem soleOwner_taskStep {r r' : Registry} {stopped : Bool} {i : ℕ} {a : Action}
    (hr : r.SoleOwner) (h : r.taskStep stopped i a = some r') : r'.SoleOwner := by
  have hconsistent := consistent_taskStep hr.consistent h
  obtain ⟨t, ht, -, heffect⟩ := taskStep_cases h
  cases heffect with
  | take hp hid =>
      refine ⟨hconsistent, ?_, ?_⟩
      · exact owner_setPhase hr ht fun _ => .inr (hr.consistent.outputs_unstarted t.id hid)
      · exact fun p hp => List.mem_cons_of_mem _ (hr.received p hp)
  | receive next hp hn =>
      refine ⟨hconsistent, ?_, ?_⟩
      · exact owner_setPhase hr ht fun _ => .inl (by rw [hp]; rfl)
      · intro p hmem
        rcases List.mem_cons.1 hmem with rfl | hmem
        · exact hr.consistent.owner_started t (List.mem_of_getElem? ht) (by rw [hp]; rfl)
        · exact hr.received p hmem
  | finish ha hp => exact ⟨hconsistent, owner_setPhase hr ht fun _ => .inl hp, hr.received⟩
  | goOn p ha howns hp =>
      refine ⟨hconsistent, owner_setPhase hr ht fun h => .inl ?_, hr.received⟩
      rw [← howns]
      exact h

theorem soleOwner_spawn {r : Registry} (hr : r.SoleOwner) (id : OutputId) :
    (r.spawn id).SoleOwner := by
  have hold : ∀ (j : ℕ) (u : Task), (r.spawn id).tasks[j]? = some u → u.phase.owns = true →
      r.tasks[j]? = some u := by
    intro j u hu howns
    rw [spawn, List.getElem?_append] at hu
    split at hu
    · exact hu
    · rcases List.mem_singleton.1 (List.mem_of_getElem? hu) with rfl
      cases howns
  refine ⟨consistent_spawn hr.consistent id, ?_, hr.received⟩
  intro j k u v hu hv huowns hvowns hid
  exact hr.owner j k u v (hold j u hu huowns) (hold k v hv hvowns) huowns hvowns hid

end Registry

theorem soleOwner_step {h h' : Hub} {e : Event} (hr : h.registry.SoleOwner)
    (hs : step h e = some h') : h'.registry.SoleOwner :=
  registry_step hs hr
    (fun _ hid => ⟨Registry.consistent_insert hr.consistent hid, hr.owner, hr.received⟩)
    (Registry.soleOwner_spawn hr)
    (fun id => ⟨Registry.consistent_remove hr.consistent id, hr.owner, hr.received⟩)
    ⟨Registry.consistent_broadcast hr.consistent, hr.owner, hr.received⟩
    (fun _ _ _ _ ht => Registry.soleOwner_taskStep hr ht)

theorem soleOwner_new : Hub.new.registry.SoleOwner := by
  refine ⟨consistent_new, ?_, ?_⟩
  · intro i j t u ht
    cases ht
  · intro p hp
    cases hp

end HubOutputs

namespace StreamManager

open Machine

/-! ### The outputs of a stream -/

/-- What an output is. -/
inductive OutputKind
  /-- `RtspOutput` -/
  | rtsp
  /-- `RtmpOutput` -/
  | rtmp
  /-- `FileOutput` -/
  | file
  /-- Attached at runtime, by `add_output_to_stream`. -/
  | attached
  deriving DecidableEq, Repr

/-- The output that `create_stream` considers next. -/
inductive Setup
  | rtsp
  | rtmp
  | recording
  /-- `hub.run()` is called. -/
  | run
  deriving DecidableEq, Repr

/-- A stream by its outputs: the hub, what the outputs are, the calls of `start()` that
`create_stream` has made and the calls of `stop()`. -/
structure StreamOutputs where
  hub : HubOutputs.Hub := .new
  setup : Setup := .rtsp
  kinds : HubOutputs.OutputId → Option OutputKind := fun _ => none
  managerStarts : List HubOutputs.OutputId := []
  stops : List HubOutputs.OutputId := []

/-- All calls of `start()`. -/
def StreamOutputs.starts (s : StreamOutputs) : List HubOutputs.OutputId :=
  s.managerStarts ++ s.hub.registry.started

/-- All streams, the recorders whose `started` is set, and the `recording_active` gauge. -/
structure Recorders where
  streams : ℕ → StreamOutputs
  started : List (ℕ × HubOutputs.OutputId)
  gauge : ℤ

/-- Before any stream is created. -/
def Recorders.new : Recorders where
  streams := fun _ => {}
  started := []
  gauge := 0

namespace Recorders

/-- `FileOutput::start` succeeds. -/
def fileStarts (w : Recorders) (n : ℕ) (id : HubOutputs.OutputId) : Recorders :=
  { w with
    started := if (n, id) ∈ w.started then w.started else (n, id) :: w.started
    gauge := w.gauge + 1 }

/-- `FileOutput::stop` -/
def fileStops (w : Recorders) (n : ℕ) (id : HubOutputs.OutputId) : Recorders :=
  { w with
    started := w.started.filter (· ≠ (n, id))
    gauge := w.gauge - 1 }

/-- A stream changes. -/
def setStream (w : Recorders) (n : ℕ) (s : StreamOutputs) : Recorders :=
  { w with streams := Function.update w.streams n s }

end Recorders

namespace StreamOutputs

/-- An output is constructed. -/
def construct (s : StreamOutputs) (id : HubOutputs.OutputId) (kind : OutputKind)
    (setup : Setup) : StreamOutputs :=
  { s with kinds := Function.update s.kinds id (some kind), setup }

/-- `create_stream` calls `start()`. -/
def startNow (s : StreamOutputs) (id : HubOutputs.OutputId) : StreamOutputs :=
  { s with managerStarts := id :: s.managerStarts }

/-- Something is done to the hub. -/
def onHub (s : StreamOutputs) (e : HubOutputs.Event) : Option StreamOutputs :=
  (HubOutputs.step s.hub e).map fun hub => { s with hub }

/-- `create_stream` starts an output, and attaches it if that succeeds. -/
def startAndAttach (s : StreamOutputs) (id : HubOutputs.OutputId) (kind : OutputKind)
    (setup : Setup) (ok : Bool) : Option StreamOutputs :=
  let started := (s.construct id kind setup).startNow id
  if ok then started.onHub (.addOutput id) else some started

end StreamOutputs

/-! ### Steps -/

/-- What can happen. -/
inductive LifeEvent
  /-- Stream `n` gets an output for the RTSP server, or there is no server. -/
  | rtsp (n : ℕ) (output : Option HubOutputs.OutputId)
  /-- RTMP push: the output and whether its `start()` succeeds, or it is not enabled. -/
  | rtmpPush (n : ℕ) (output : Option (HubOutputs.OutputId × Bool))
  /-- Recording: likewise. -/
  | recording (n : ℕ) (output : Option (HubOutputs.OutputId × Bool))
  /-- Something happens in the hub. -/
  | hub (n : ℕ) (event : HubOutputs.Event)

/-- What can happen to a hub from `run` on; `create_stream` keeps the hub to itself before, and only
a handle of it is left afterwards. -/
def fromRunOn : HubOutputs.Event → Bool
  | .addOutput _ | .tryAddOutput _ | .tryInsert _ | .spawnAdded => false
  | .addOutputAtRuntime _ | .spawnAttached _ | .removeOutput _ | .run | .runCollect _ | .runSpawn
  | .runReturns | .stop | .broadcast | .sourceEnds | .task _ _ => true

/-- The task leaves its loop, and calls `stop()`. -/
def callsStop : HubOutputs.Action → Bool
  | .globalStop | .outputStop | .closed | .sendErr => true
  | .take | .startOk | .startErr | .recv | .lagged | .sendOk | .stopReturns => false

/-- What a task does to its output: `start()` returns, or `stop()` is called. -/
def Recorders.onTask (w : Recorders) (n : ℕ) (id : HubOutputs.OutputId) (a : HubOutputs.Action) :
    Recorders :=
  let s := w.streams n
  if callsStop a then
    let w := w.setStream n { s with stops := id :: s.stops }
    if s.kinds id = some .file then w.fileStops n id else w
  else if a = .startOk ∧ s.kinds id = some .file then w.fileStarts n id
  else w

/-- What an event does to the outputs, beside what it does to the hub. -/
@[grind =] def Recorders.effect (w : Recorders) (n : ℕ) : HubOutputs.Event → Recorders
  | .task i a =>
      match (w.streams n).hub.registry.tasks[i]? with
      | some t => w.onTask n t.id a
      | none => w
  | .addOutputAtRuntime id => w.setStream n ((w.streams n).construct id .attached .run)
  | _ => w

/-- An output has not been constructed yet: its id is a random UUID. -/
def StreamOutputs.unused (s : StreamOutputs) : HubOutputs.Event → Bool
  | .addOutputAtRuntime id => s.kinds id = none
  | _ => true

/-- **One step.** -/
@[grind =] def lifeStep (w : Recorders) : LifeEvent → Option Recorders
  | .rtsp n output =>
      let s := w.streams n
      match s.setup, output with
      | .rtsp, none => some (w.setStream n { s with setup := .rtmp })
      | .rtsp, some id =>
          if s.kinds id = none then
            ((s.construct id .rtsp .rtmp).onHub (.addOutput id)).map (w.setStream n)
          else none
      | _, _ => none
  | .rtmpPush n output =>
      let s := w.streams n
      match s.setup, output with
      | .rtmp, none => some (w.setStream n { s with setup := .recording })
      | .rtmp, some (id, ok) =>
          if s.kinds id = none then (s.startAndAttach id .rtmp .recording ok).map (w.setStream n)
          else none
      | _, _ => none
  | .recording n output =>
      let s := w.streams n
      match s.setup, output with
      | .recording, none => some (w.setStream n { s with setup := .run })
      | .recording, some (id, ok) =>
          if s.kinds id = none then
            (s.startAndAttach id .file .run ok).map fun s =>
              if ok then (w.setStream n s).fileStarts n id else w.setStream n s
          else none
      | _, _ => none
  | .hub n e =>
      let s := w.streams n
      if s.setup = .run ∧ fromRunOn e ∧ s.unused e then
        (HubOutputs.step s.hub e).map fun hub =>
          let w := w.effect n e
          w.setStream n { w.streams n with hub }
      else none

/-! ### What is to hold -/

/-- **Outputs are started and stopped once**, before they are sent frames, and the gauge counts the
recorders that are started and not stopped. -/
structure Balanced (w : Recorders) : Prop where
  start_once : ∀ n, (w.streams n).starts.Nodup
  start_first : ∀ n, ∀ p ∈ (w.streams n).hub.registry.received, p.1 ∈ (w.streams n).starts
  stop_once : ∀ n, (w.streams n).stops.Nodup
  gauge_eq : w.gauge = w.started.length

/-- **A task does not take an output that `create_stream` has started.** -/
def StartsFresh (w : Recorders) : LifeEvent → Prop
  | .hub n (.task i .take) => ∀ t, (w.streams n).hub.registry.tasks[i]? = some t →
      t.id ∈ (w.streams n).hub.registry.outputs → t.id ∉ (w.streams n).managerStarts
  | _ => True

/-- It is only asked of tasks that take their output. -/
theorem startsFresh_of_take {w : Recorders} {e : LifeEvent}
    (h : ∀ n i, e = .hub n (.task i .take) → StartsFresh w e) : StartsFresh w e := by
  cases e with
  | rtsp n output => trivial
  | rtmpPush n output => trivial
  | recording n output => trivial
  | hub n e =>
      cases e with
      | task i a =>
          cases a with
          | take => exact h n i rfl
          | _ => trivial
      | _ => trivial

/-! ### Tasks that stop their output -/

/-- A task that calls `stop()` was in its loop. -/
theorem taskStep_callsStop {r r' : HubOutputs.Registry} {stopped : Bool} {i : ℕ}
    {a : HubOutputs.Action} {t : HubOutputs.Task} (ht : r.tasks[i]? = some t)
    (h : r.taskStep stopped i a = some r') (ha : callsStop a = true) :
    t.phase.owns = true ∧ t.phase ≠ .stopping ∧ t.phase ≠ .ended ∧
      r' = r.setPhase i t .stopping := by
  rw [HubOutputs.Registry.taskStep, ht] at h
  obtain ⟨id, phase⟩ := t
  dsimp only at h ⊢
  cases phase with
  | receiving next =>
      refine ⟨rfl, ?_⟩
      cases a with
      | globalStop =>
          dsimp only at h
          split at h
          · cases h
            simp
          · cases h
      | outputStop =>
          dsimp only at h
          split at h
          · cases h
          · cases h
            simp
      | closed =>
          cases h
          simp
      | sendErr => cases h
      | take | startOk | startErr | recv | lagged | sendOk | stopReturns => cases ha
  | sending next =>
      refine ⟨rfl, ?_⟩
      cases a with
      | sendErr =>
          cases h
          simp
      | globalStop | outputStop | closed => cases h
      | take | startOk | startErr | recv | lagged | sendOk | stopReturns => cases ha
  | waiting | gone | starting | stopping | ended =>
      cases a with
      | globalStop | outputStop | closed | sendErr => cases h
      | take | startOk | startErr | recv | lagged | sendOk | stopReturns => cases ha

/-- A task in `stop()` only ends. -/
theorem taskStep_stopping {r r' : HubOutputs.Registry} {stopped : Bool} {i : ℕ}
    {a : HubOutputs.Action} {t : HubOutputs.Task} (ht : r.tasks[i]? = some t)
    (h : r.taskStep stopped i a = some r') (hphase : t.phase = .stopping) :
    r' = r.setPhase i t .ended := by
  rw [HubOutputs.Registry.taskStep, ht] at h
  obtain ⟨id, phase⟩ := t
  cases hphase
  dsimp only at h ⊢
  cases a with
  | stopReturns =>
      cases h
      rfl
  | take | startOk | startErr | recv | lagged | sendOk | globalStop | outputStop | closed
  | sendErr => cases h

/-- So the phase it goes to is the last one. -/
theorem phase_of_stopping {r : HubOutputs.Registry} {stopped : Bool} {i : ℕ}
    {a : HubOutputs.Action} {t : HubOutputs.Task} {p : HubOutputs.Phase}
    (ht : r.tasks[i]? = some t) (h : r.taskStep stopped i a = some (r.setPhase i t p))
    (hphase : t.phase = .stopping) : p = .ended := by
  have htasks := congrArg (fun r => r.tasks[i]?) (taskStep_stopping ht h hphase)
  obtain ⟨hi, -⟩ := List.getElem?_eq_some_iff.1 ht
  simp only [HubOutputs.Registry.setPhase, List.getElem?_set_self hi] at htasks
  cases htasks
  rfl

/-- A task whose `start()` returns had taken its output. -/
theorem taskStep_startOk {r r' : HubOutputs.Registry} {stopped : Bool} {i : ℕ}
    {t : HubOutputs.Task} (ht : r.tasks[i]? = some t)
    (h : r.taskStep stopped i .startOk = some r') : t.phase = .starting := by
  rw [HubOutputs.Registry.taskStep, ht] at h
  obtain ⟨id, phase⟩ := t
  cases phase with
  | starting => rfl
  | waiting | gone | receiving _ | sending _ | stopping | ended => cases h

/-- A task that finds its output takes it. -/
theorem taskStep_take {r r' : HubOutputs.Registry} {stopped : Bool} {i : ℕ} {t : HubOutputs.Task}
    (ht : r.tasks[i]? = some t) (h : r.taskStep stopped i .take = some r')
    (hid : t.id ∈ r.outputs) : r' = r.take i t := by
  rw [HubOutputs.Registry.taskStep, ht] at h
  obtain ⟨id, phase⟩ := t
  cases phase with
  | waiting =>
      dsimp only at h hid
      rw [if_pos hid] at h
      exact (Option.some.inj h).symm
  | starting | gone | receiving _ | sending _ | stopping | ended => cases h

/-! ### The invariant -/

/-- What the steps keep of a stream, as long as its tasks take no output that is started. -/
structure Settled (s : StreamOutputs) : Prop where
  owners : s.hub.registry.SoleOwner
  added : ∀ id ∈ s.hub.registry.added, s.kinds id ≠ none
  managerStarts : ∀ id ∈ s.managerStarts, s.kinds id ≠ none
  managerStarts_nodup : s.managerStarts.Nodup
  file : ∀ id, s.kinds id = some .file → id ∈ s.managerStarts
  fresh : ∀ id ∈ s.managerStarts, id ∉ s.hub.registry.started
  stops_nodup : s.stops.Nodup
  stops_started : ∀ id ∈ s.stops, id ∈ s.hub.registry.started
  stopped : ∀ t ∈ s.hub.registry.tasks, t.phase.owns = true → t.id ∈ s.stops →
    t.phase = .stopping ∨ t.phase = .ended

theorem settled_default : Settled {} := by
  refine ⟨HubOutputs.soleOwner_new, ?_, ?_, List.nodup_nil, ?_, ?_, List.nodup_nil, ?_, ?_⟩
  · intro id hid
    cases hid
  · intro id hid
    cases hid
  · intro id hid
    cases hid
  · intro id hid
    cases hid
  · intro id hid
    cases hid
  · intro t ht
    cases ht

/-- `create_stream` goes on to the next output. -/
theorem settled_setup {s : StreamOutputs} (hs : Settled s) (setup : Setup) :
    Settled { s with setup } :=
  ⟨hs.owners, hs.added, hs.managerStarts, hs.managerStarts_nodup, hs.file, hs.fresh,
    hs.stops_nodup, hs.stops_started, hs.stopped⟩

/-- An output that was constructed before, or just now, has a kind. -/
theorem kinds_construct_ne_none {s : StreamOutputs} {id x : HubOutputs.OutputId} (kind : OutputKind)
    (setup : Setup) (hx : s.kinds x ≠ none ∨ x = id) :
    (s.construct id kind setup).kinds x ≠ none := by
  simp only [StreamOutputs.construct]
  by_cases hxid : x = id
  · rw [hxid, Function.update_self]
    exact Option.some_ne_none _
  · rw [Function.update_of_ne hxid]
    exact hx.resolve_right hxid

/-- An output that is not a recorder is constructed. -/
theorem settled_construct {s : StreamOutputs} {id : HubOutputs.OutputId} {kind : OutputKind}
    {setup : Setup} (hs : Settled s) (hkind : kind ≠ .file) :
    Settled (s.construct id kind setup) := by
  refine ⟨hs.owners, fun x hx => kinds_construct_ne_none kind setup (.inl (hs.added x hx)),
    fun x hx => kinds_construct_ne_none kind setup (.inl (hs.managerStarts x hx)),
    hs.managerStarts_nodup, ?_, hs.fresh, hs.stops_nodup, hs.stops_started, hs.stopped⟩
  intro x hx
  simp only [StreamOutputs.construct] at hx
  by_cases hxid : x = id
  · rw [hxid, Function.update_self] at hx
    exact absurd (Option.some.inj hx) hkind
  · rw [Function.update_of_ne hxid] at hx
    exact hs.file x hx

/-- An output is constructed and started by `create_stream`. -/
theorem settled_startNow {s : StreamOutputs} {id : HubOutputs.OutputId} {kind : OutputKind}
    {setup : Setup} (hs : Settled s) (hid : s.kinds id = none) :
    Settled ((s.construct id kind setup).startNow id) := by
  -- an id that was never given out has not been started by anyone
  have hstarted : id ∉ s.hub.registry.started := by
    intro h
    exact hs.added id (hs.owners.consistent.started_added id h) hid
  have hmanager : id ∉ s.managerStarts := fun h => hs.managerStarts id h hid
  have hsome : ∀ x, s.kinds x ≠ none ∨ x = id → (s.construct id kind setup).kinds x ≠ none :=
    fun x hx => kinds_construct_ne_none kind setup hx
  refine ⟨hs.owners, fun x hx => hsome x (.inl (hs.added x hx)), ?_,
    List.nodup_cons.2 ⟨hmanager, hs.managerStarts_nodup⟩, ?_, ?_, hs.stops_nodup,
    hs.stops_started, hs.stopped⟩
  · intro x hx
    rcases List.mem_cons.1 hx with rfl | hx
    · exact hsome x (.inr rfl)
    · exact hsome x (.inl (hs.managerStarts x hx))
  · intro x hx
    simp only [StreamOutputs.construct, StreamOutputs.startNow] at hx
    by_cases hxid : x = id
    · rw [hxid]
      exact List.mem_cons_self
    · rw [Function.update_of_ne hxid] at hx
      exact List.mem_cons_of_mem _ (hs.file x hx)
  · intro x hx
    rcases List.mem_cons.1 hx with rfl | hx
    · exact hstarted
    · exact hs.fresh x hx

/-- A registry with the same starts and no new task that has taken an output. -/
theorem settled_registry {s : StreamOutputs} {hub : HubOutputs.Hub} (hs : Settled s)
    (howners : hub.registry.SoleOwner) (hstarted : hub.registry.started = s.hub.registry.started)
    (hadded : ∀ id ∈ hub.registry.added, id ∈ s.hub.registry.added ∨ s.kinds id ≠ none)
    (htasks : ∀ t ∈ hub.registry.tasks, t.phase.owns = true → t ∈ s.hub.registry.tasks) :
    Settled { s with hub } := by
  refine ⟨howners, ?_, hs.managerStarts, hs.managerStarts_nodup, hs.file, ?_, hs.stops_nodup,
    ?_, fun t ht howns => hs.stopped t (htasks t ht howns) howns⟩
  · intro id hid
    rcases hadded id hid with hid | hid
    · exact hs.added id hid
    · exact hid
  · dsimp only
    rw [hstarted]
    exact hs.fresh
  · dsimp only
    rw [hstarted]
    exact hs.stops_started

/-- **A step of a hub that no task takes**; it may put an output that is constructed into the
map. -/
theorem settled_hub {s : StreamOutputs} {hub : HubOutputs.Hub} {e : HubOutputs.Event}
    (hs : Settled s) (h : HubOutputs.step s.hub e = some hub) (htask : ∀ i a, e ≠ .task i a)
    (hinserts : ∀ id, e.inserts = some id → s.kinds id ≠ none) : Settled { s with hub } := by
  have howners := HubOutputs.soleOwner_step hs.owners h
  rcases HubOutputs.step_cases h with hr | ⟨id, hid, -, hr⟩ | ⟨id, hr⟩ | ⟨id, hr⟩ | hr |
    ⟨i, a, he, -⟩
  · refine settled_registry hs howners (by rw [hr]) ?_ ?_
    · rw [hr]
      exact fun _ => .inl
    · rw [hr]
      exact fun _ ht _ => ht
  · refine settled_registry hs howners (by rw [hr]; rfl) ?_ ?_
    · rw [hr]
      intro x hx
      rcases List.mem_cons.1 hx with rfl | hx
      · exact .inr (hinserts x hid)
      · exact .inl hx
    · rw [hr]
      exact fun _ ht _ => ht
  · refine settled_registry hs howners (by rw [hr]; rfl) ?_ ?_
    · rw [hr]
      exact fun _ => .inl
    · rw [hr]
      intro t ht howns
      rcases List.mem_append.1 ht with ht | ht
      · exact ht
      · rw [List.mem_singleton.1 ht] at howns
        cases howns
  · refine settled_registry hs howners (by rw [hr]; rfl) ?_ ?_
    · rw [hr]
      exact fun _ => .inl
    · rw [hr]
      exact fun _ ht _ => ht
  · refine settled_registry hs howners (by rw [hr]; rfl) ?_ ?_
    · rw [hr]
      exact fun _ => .inl
    · rw [hr]
      exact fun _ ht _ => ht
  · exact absurd he (htask i a)

/-- The outputs that were stopped stay with tasks that stop or have ended, when task `i` goes to the
phase `p`. -/
theorem stopped_setPhase {s : StreamOutputs} {i : ℕ} {t : HubOutputs.Task} {p : HubOutputs.Phase}
    (hs : Settled s) (ht : s.hub.registry.tasks[i]? = some t) (hended : t.phase ≠ .ended)
    (hp : p.owns = true → t.phase.owns = true ∨ t.id ∉ s.stops)
    (hpended : t.phase = .stopping → p = .ended) :
    ∀ u ∈ (s.hub.registry.setPhase i t p).tasks, u.phase.owns = true → u.id ∈ s.stops →
      u.phase = .stopping ∨ u.phase = .ended := by
  intro u hu huowns hid
  rcases hs.owners.mem_setPhase ht hu huowns with rfl | ⟨hu, -⟩
  · rcases hp huowns with howns | hnot
    · rcases hs.stopped t (List.mem_of_getElem? ht) howns hid with hphase | hphase
      · exact .inr (hpended hphase)
      · exact absurd hphase hended
    · exact absurd hid hnot
  · exact hs.stopped u hu huowns hid

/-- **A task leaves its loop**, and calls `stop()` for the first time. -/
theorem settled_task_stop {s : StreamOutputs} {r : HubOutputs.Registry} {i : ℕ}
    {a : HubOutputs.Action} {t : HubOutputs.Task} (hs : Settled s)
    (ht : s.hub.registry.tasks[i]? = some t)
    (h : s.hub.registry.taskStep s.hub.stopped i a = some r) (ha : callsStop a = true) :
    Settled { s with hub := { s.hub with registry := r }, stops := t.id :: s.stops } := by
  have howners := HubOutputs.Registry.soleOwner_taskStep hs.owners h
  obtain ⟨howns, hstopping, hended, rfl⟩ := taskStep_callsStop ht h ha
  have hmem := List.mem_of_getElem? ht
  -- a task whose output was stopped has left its loop
  have hunstopped : t.id ∉ s.stops := by
    intro hid
    rcases hs.stopped t hmem howns hid with hphase | hphase
    · exact hstopping hphase
    · exact hended hphase
  refine ⟨howners, hs.added, hs.managerStarts, hs.managerStarts_nodup, hs.file, hs.fresh,
    List.nodup_cons.2 ⟨hunstopped, hs.stops_nodup⟩, ?_, ?_⟩
  · intro id hid
    rcases List.mem_cons.1 hid with rfl | hid
    · exact hs.owners.consistent.owner_started t hmem howns
    · exact hs.stops_started id hid
  · intro u hu huowns hid
    rcases hs.owners.mem_setPhase ht hu huowns with rfl | ⟨hu, hne⟩
    · exact .inl rfl
    · rcases List.mem_cons.1 hid with heq | hid
      · exact absurd heq (hne howns)
      · exact hs.stopped u hu huowns hid

/-- **Another step of a task**, which does not take an output that is started already. -/
theorem settled_task {s : StreamOutputs} {r : HubOutputs.Registry} {i : ℕ}
    {a : HubOutputs.Action} {t : HubOutputs.Task} (hs : Settled s)
    (ht : s.hub.registry.tasks[i]? = some t)
    (h : s.hub.registry.taskStep s.hub.stopped i a = some r)
    (hfresh : a = .take → t.id ∈ s.hub.registry.outputs → t.id ∉ s.managerStarts) :
    Settled { s with hub := { s.hub with registry := r } } := by
  have howners := HubOutputs.Registry.soleOwner_taskStep hs.owners h
  obtain ⟨t', ht', hended, heffect⟩ := HubOutputs.Registry.taskStep_cases h
  obtain rfl : t = t' := Option.some.inj (ht.symm.trans ht')
  cases heffect with
  | take hp hid =>
      have hunstarted := hs.owners.consistent.outputs_unstarted t.id hid
      refine ⟨howners, hs.added, hs.managerStarts, hs.managerStarts_nodup, hs.file, ?_,
        hs.stops_nodup, fun id h => List.mem_cons_of_mem _ (hs.stops_started id h), ?_⟩
      · intro id hmanager hmem
        rcases List.mem_cons.1 hmem with rfl | hmem
        · exact hfresh rfl hid hmanager
        · exact hs.fresh id hmanager hmem
      · -- what was stopped was started, and this output was not
        refine stopped_setPhase hs ht hended ?_ ?_
        · exact fun _ => .inr fun h => hunstarted (hs.stops_started _ h)
        · intro hphase
          rw [hp] at hphase
          cases hphase
  | receive next hp hn =>
      refine ⟨howners, hs.added, hs.managerStarts, hs.managerStarts_nodup, hs.file, hs.fresh,
        hs.stops_nodup, hs.stops_started, ?_⟩
      refine stopped_setPhase hs ht hended (fun _ => .inl (by rw [hp]; rfl)) ?_
      intro hphase
      rw [hp] at hphase
      cases hphase
  | finish ha hp =>
      exact ⟨howners, hs.added, hs.managerStarts, hs.managerStarts_nodup, hs.file, hs.fresh,
        hs.stops_nodup, hs.stops_started,
        stopped_setPhase hs ht hended (fun _ => .inl hp) fun _ => rfl⟩
  | goOn p ha howns hp =>
      refine ⟨howners, hs.added, hs.managerStarts, hs.managerStarts_nodup, hs.file, hs.fresh,
        hs.stops_nodup, hs.stops_started, stopped_setPhase hs ht hended ?_ ?_⟩
      · intro hpowns
        rw [howns] at hpowns
        exact .inl hpowns
      · exact phase_of_stopping ht h

/-- What the steps keep, as long as the tasks take no output that is started. -/
structure AllSettled (w : Recorders) : Prop where
  settled : ∀ n, Settled (w.streams n)
  started : ∀ p ∈ w.started, p.2 ∈ (w.streams p.1).managerStarts
  gauge_eq : w.gauge = w.started.length

/-- A stream changes, and the recorders do not. -/
theorem allSettled_setStream {w : Recorders} {n : ℕ} {s : StreamOutputs} (hw : AllSettled w)
    (hs : Settled s) (hstarts : ∀ id ∈ (w.streams n).managerStarts, id ∈ s.managerStarts) :
    AllSettled (w.setStream n s) := by
  refine ⟨?_, ?_, hw.gauge_eq⟩
  · exact (Function.forall_update_iff w.streams fun _ s => Settled s).2
      ⟨hs, fun m _ => hw.settled m⟩
  · intro p hp
    have hall := (Function.forall_update_iff (a := n) (b := s) w.streams fun m s =>
      ∀ id ∈ (w.streams m).managerStarts, id ∈ s.managerStarts).2 ⟨hstarts, fun _ _ _ => id⟩
    exact hall p.1 p.2 (hw.started p hp)

/-- A new recorder is started. -/
theorem allSettled_fileStarts {w : Recorders} {n : ℕ} {id : HubOutputs.OutputId}
    (hw : AllSettled w) (hnew : (n, id) ∉ w.started) (hid : id ∈ (w.streams n).managerStarts) :
    AllSettled (w.fileStarts n id) := by
  refine ⟨hw.settled, ?_, ?_⟩
  · intro p hp
    simp only [Recorders.fileStarts, if_neg hnew] at hp
    rcases List.mem_cons.1 hp with rfl | hp
    · exact hid
    · exact hw.started p hp
  · have := hw.gauge_eq
    simp only [Recorders.fileStarts, if_neg hnew, List.length_cons]
    omega

/-- What `startAndAttach` gives. -/
theorem settled_startAndAttach {s s' : StreamOutputs} {id : HubOutputs.OutputId}
    {kind : OutputKind} {setup : Setup} {ok : Bool} (hs : Settled s) (hid : s.kinds id = none)
    (h : s.startAndAttach id kind setup ok = some s') :
    Settled s' ∧ s'.managerStarts = id :: s.managerStarts := by
  have hstarted : Settled ((s.construct id kind setup).startNow id) := settled_startNow hs hid
  cases ok with
  | false =>
      cases h
      exact ⟨hstarted, rfl⟩
  | true =>
      obtain ⟨hub, hhub, rfl⟩ := Option.map_eq_some_iff.1 h
      refine ⟨settled_hub hstarted hhub (fun _ _ => HubOutputs.Event.noConfusion) ?_, rfl⟩
      intro x hx
      cases hx
      simp [StreamOutputs.construct, StreamOutputs.startNow]

/-- **A step of a hub keeps the invariant.** -/
theorem allSettled_hub {w : Recorders} {n : ℕ} {e : HubOutputs.Event} {hub : HubOutputs.Hub}
    (hw : AllSettled w) (he : fromRunOn e = true) (hfresh : StartsFresh w (.hub n e))
    (h : HubOutputs.step (w.streams n).hub e = some hub) :
    AllSettled ((w.effect n e).setStream n { (w.effect n e).streams n with hub }) := by
  have hs := hw.settled n
  by_cases htask : ∃ i a, e = .task i a
  · obtain ⟨i, a, rfl⟩ := htask
    obtain ⟨r, hr, rfl⟩ := Option.map_eq_some_iff.1 h
    obtain ⟨t, ht, -, -⟩ := HubOutputs.Registry.taskStep_cases hr
    -- a task that has taken an output has taken none of the recorders
    have hfile : t.phase.owns = true → (w.streams n).kinds t.id ≠ some .file := by
      intro howns hkind
      exact hs.fresh t.id (hs.file t.id hkind)
        (hs.owners.consistent.owner_started t (List.mem_of_getElem? ht) howns)
    simp only [Recorders.effect, ht, Recorders.onTask]
    by_cases hstop : callsStop a = true
    · have howns := (taskStep_callsStop ht hr hstop).1
      have hset := allSettled_setStream hw (settled_task_stop hs ht hr hstop) fun _ => id
      rw [if_pos hstop, if_neg (hfile howns)]
      simpa [Recorders.setStream] using hset
    · have hsettled := settled_task hs ht hr fun ha hid => by
        subst ha
        exact hfresh t ht hid
      rw [if_neg hstop, if_neg]
      · exact allSettled_setStream hw hsettled fun _ => id
      · rintro ⟨rfl, hkind⟩
        exact hfile (by rw [taskStep_startOk ht hr]; rfl) hkind
  · have htask' : ∀ i a, e ≠ .task i a := fun i a h => htask ⟨i, a, h⟩
    by_cases hruntime : ∃ id, e = .addOutputAtRuntime id
    · obtain ⟨id, rfl⟩ := hruntime
      have hconstruct : Settled ((w.streams n).construct id .attached .run) :=
        settled_construct hs (by decide)
      have hsettled := settled_hub hconstruct h htask' (by
        intro x hx
        cases hx
        simp [StreamOutputs.construct])
      have hset := allSettled_setStream hw hsettled fun _ hx => hx
      simpa [Recorders.effect, Recorders.setStream] using hset
    · have heffect : w.effect n e = w := by
        cases e with
        | task i a => exact absurd rfl (htask' i a)
        | addOutputAtRuntime id => exact absurd ⟨id, rfl⟩ hruntime
        | _ => rfl
      rw [heffect]
      refine allSettled_setStream hw (settled_hub hs h htask' ?_) fun _ => id
      intro x hx
      cases e with
      | addOutputAtRuntime id => exact absurd ⟨id, rfl⟩ hruntime
      | addOutput id | tryInsert id => cases he
      | _ => cases hx

/-- **One step keeps the invariant**, unless a task takes an output that is started. -/
theorem allSettled_lifeStep {w v : Recorders} {e : LifeEvent} (hw : AllSettled w)
    (hfresh : StartsFresh w e) (h : lifeStep w e = some v) : AllSettled v := by
  cases e with
  | rtsp n output =>
      simp only [lifeStep] at h
      split at h
      · cases h
        exact allSettled_setStream hw (settled_setup (hw.settled n) _) fun _ => id
      · split at h
        · obtain ⟨s, hs, rfl⟩ := Option.map_eq_some_iff.1 h
          obtain ⟨hub, hhub, rfl⟩ := Option.map_eq_some_iff.1 hs
          have hkind : OutputKind.rtsp ≠ .file := by decide
          refine allSettled_setStream hw (settled_hub (settled_construct (hw.settled n) hkind) hhub
            (fun _ _ => HubOutputs.Event.noConfusion) ?_) fun _ => id
          intro x hx
          cases hx
          simp [StreamOutputs.construct]
        · cases h
      · cases h
  | rtmpPush n output =>
      simp only [lifeStep] at h
      split at h
      · cases h
        exact allSettled_setStream hw (settled_setup (hw.settled n) _) fun _ => id
      · split at h
        · rename_i hid
          obtain ⟨s, hs, rfl⟩ := Option.map_eq_some_iff.1 h
          obtain ⟨hsettled, hstarts⟩ := settled_startAndAttach (hw.settled n) hid hs
          refine allSettled_setStream hw hsettled ?_
          rw [hstarts]
          exact fun _ => List.mem_cons_of_mem _
        · cases h
      · cases h
  | recording n output =>
      simp only [lifeStep] at h
      split at h
      · cases h
        exact allSettled_setStream hw (settled_setup (hw.settled n) _) fun _ => id
      · split at h
        · rename_i id ok _ hid
          obtain ⟨s, hs, rfl⟩ := Option.map_eq_some_iff.1 h
          obtain ⟨hsettled, hstarts⟩ := settled_startAndAttach (hw.settled n) hid hs
          have hset : AllSettled (w.setStream n s) := by
            refine allSettled_setStream hw hsettled ?_
            rw [hstarts]
            exact fun _ => List.mem_cons_of_mem _
          cases ok with
          | false => exact hset
          | true =>
              refine allSettled_fileStarts hset ?_ ?_
              · intro hmem
                exact (hw.settled n).managerStarts id (hw.started (n, id) hmem) hid
              · simp [Recorders.setStream, hstarts]
        · cases h
      · cases h
  | hub n e =>
      simp only [lifeStep] at h
      split at h
      · rename_i hguard
        obtain ⟨hub, hhub, rfl⟩ := Option.map_eq_some_iff.1 h
        exact allSettled_hub hw hguard.2.1 hfresh hhub
      · cases h

theorem allSettled_new : AllSettled Recorders.new := by
  refine ⟨fun _ => settled_default, ?_, rfl⟩
  intro p hp
  cases hp

/-! ### Started and stopped once -/

theorem balanced_of_allSettled {w : Recorders} (hw : AllSettled w) : Balanced w := by
  refine ⟨?_, ?_, fun n => (hw.settled n).stops_nodup, hw.gauge_eq⟩
  · intro n
    have hs := hw.settled n
    rw [StreamOutputs.starts, List.nodup_append]
    refine ⟨hs.managerStarts_nodup, hs.owners.consistent.started_nodup, ?_⟩
    rintro x hx y hy rfl
    exact hs.fresh x hx hy
  · intro n p hp
    exact List.mem_append_right _ ((hw.settled n).owners.received p hp)

/-- A task that takes an output which is started already starts it twice. -/
theorem startsFresh_of_balanced {w v : Recorders} {e : LifeEvent} (hv : Balanced v)
    (h : lifeStep w e = some v) : StartsFresh w e := by
  refine startsFresh_of_take ?_
  rintro n i rfl t ht hid hmanager
  simp only [lifeStep] at h
  split at h
  · obtain ⟨hub, hhub, rfl⟩ := Option.map_eq_some_iff.1 h
    obtain ⟨r, hr, rfl⟩ := Option.map_eq_some_iff.1 hhub
    have honce : ((w.streams n).managerStarts ++
        t.id :: (w.streams n).hub.registry.started).Nodup := by
      have hstarts := hv.start_once n
      rw [taskStep_take ht hr hid] at hstarts
      simpa [StreamOutputs.starts, Recorders.setStream, Recorders.effect, ht,
        Recorders.onTask, callsStop, HubOutputs.Registry.take] using hstarts
    exact (List.nodup_append.1 honce).2.2 t.id hmanager t.id List.mem_cons_self rfl
  · cases h

/-- Starts and stops are balanced while no task takes an output that is started. -/
theorem balanced_passes {es : List LifeEvent}
    (hes : ∀ u e v, Occurs lifeStep Recorders.new es u e → lifeStep u e = some v → StartsFresh u e)
    {v : Recorders} (hv : Passes lifeStep Recorders.new es v) : Balanced v :=
  balanced_of_allSettled (passes_induction
    (fun u e v hu hs hv => allSettled_lifeStep hs (hes u e v hu hv) hv) allSettled_new hv)

/-- **Starts, stops and the gauge are balanced in every state of a run exactly when no task takes an
output that `create_stream` has started.** -/
theorem balanced_iff (es : List LifeEvent) :
    (∀ v, Passes lifeStep Recorders.new es v → Balanced v) ↔
      ∀ u e v, Occurs lifeStep Recorders.new es u e → lifeStep u e = some v → StartsFresh u e := by
  constructor
  · intro h u e v hu hv
    exact startsFresh_of_balanced (h v (hu.passes hv)) hv
  · intro h v hv
    exact balanced_passes h hv

/-- A camera that records, without RTSP and RTMP: it is created, its task starts the output, and the
stream is stopped. -/
def recordAndStop : List LifeEvent := [
  .rtsp 0 none, .rtmpPush 0 none, .recording 0 (some (7, true)),
  .hub 0 .run, .hub 0 (.runCollect [7]), .hub 0 .runSpawn, .hub 0 .runReturns,
  .hub 0 (.task 0 .take), .hub 0 (.task 0 .startOk), .hub 0 .stop, .hub 0 (.task 0 .globalStop)]

/-- The recorder was started twice and stopped once: nothing records any more, and the gauge says
that something does. -/
theorem not_balanced_recordAndStop : ∃ v, exec lifeStep Recorders.new recordAndStop = some v ∧
    (v.streams 0).starts = [7, 7] ∧ v.started = [] ∧ v.gauge = 1 ∧ ¬ Balanced v := by
  refine ⟨_, rfl, by decide, by decide, by decide, ?_⟩
  intro h
  have := h.gauge_eq
  revert this
  decide

/-! ### Neither RTMP push nor recording -/

/-- `create_stream` starts an output. -/
def LifeEvent.starts : LifeEvent → Bool
  | .rtmpPush _ (some _) | .recording _ (some _) => true
  | .rtmpPush _ none | .recording _ none | .rtsp _ _ | .hub _ _ => false

theorem managerStarts_setStream {w : Recorders} {n : ℕ} {s : StreamOutputs} (m : ℕ)
    (h : s.managerStarts = (w.streams n).managerStarts) :
    ((w.setStream n s).streams m).managerStarts = (w.streams m).managerStarts :=
  proj_update StreamOutputs.managerStarts h m

theorem managerStarts_effect (w : Recorders) (n : ℕ) (e : HubOutputs.Event) (m : ℕ) :
    ((w.effect n e).streams m).managerStarts = (w.streams m).managerStarts := by
  cases e with
  | task i a =>
      simp only [Recorders.effect]
      split
      · rename_i t _
        simp only [Recorders.onTask]
        split
        · split
          · exact managerStarts_setStream m (by rfl)
          · exact managerStarts_setStream m (by rfl)
        · split
          · rfl
          · rfl
      · rfl
  | addOutputAtRuntime id => exact managerStarts_setStream m (by rfl)
  | _ => rfl

/-- Only `create_stream` starts an output before it is attached. -/
theorem managerStarts_lifeStep {w v : Recorders} {e : LifeEvent} (he : e.starts = false)
    (h : lifeStep w e = some v) (m : ℕ) :
    (v.streams m).managerStarts = (w.streams m).managerStarts := by
  cases e with
  | rtsp n output =>
      simp only [lifeStep] at h
      split at h
      · cases h
        exact managerStarts_setStream m (by rfl)
      · split at h
        · obtain ⟨s, hs, rfl⟩ := Option.map_eq_some_iff.1 h
          obtain ⟨hub, -, rfl⟩ := Option.map_eq_some_iff.1 hs
          exact managerStarts_setStream m (by rfl)
        · cases h
      · cases h
  | rtmpPush n output =>
      cases output with
      | some o => cases he
      | none =>
          simp only [lifeStep] at h
          split at h
          · cases h
            exact managerStarts_setStream m (by rfl)
          · rename_i heq
            cases heq
          · cases h
  | recording n output =>
      cases output with
      | some o => cases he
      | none =>
          simp only [lifeStep] at h
          split at h
          · cases h
            exact managerStarts_setStream m (by rfl)
          · rename_i heq
            cases heq
          · cases h
  | hub n e =>
      simp only [lifeStep] at h
      split at h
      · obtain ⟨hub, -, rfl⟩ := Option.map_eq_some_iff.1 h
        rw [managerStarts_setStream m (by rfl)]
        exact managerStarts_effect w n e m
      · cases h

/-- **While there is neither RTMP push nor recording**, starts and stops are balanced. -/
theorem balanced_of_unstarted {es : List LifeEvent} (hes : ∀ e ∈ es, e.starts = false)
    {v : Recorders} (h : Passes lifeStep Recorders.new es v) : Balanced v := by
  have hnone : ∀ w, Passes lifeStep Recorders.new es w → ∀ n, (w.streams n).managerStarts = [] := by
    intro w hw
    refine passes_invariant (I := fun w => ∀ n, (w.streams n).managerStarts = [])
      (fun u e t he hu ht n => ?_) hes (fun _ => rfl) hw
    rw [managerStarts_lifeStep he ht n]
    exact hu n
  refine balanced_passes (fun u e t hu ht => startsFresh_of_take ?_) h
  rintro n i rfl t _ _
  rw [hnone u hu.passes_before n]
  exact List.not_mem_nil

end StreamManager
