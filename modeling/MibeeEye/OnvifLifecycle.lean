/-
**Starting and stopping ONVIF.**

`start_onvif` and `stop_onvif` of `crates/web/src/protocol_runtime.rs`.  A start stops what runs,
keeps a shutdown sender, mounts the services, fills the events slot, spawns a task for the SOAP server
and one for discovery, and waits for the first to report.  An error exit after that aborts the SOAP
task and returns: the handle of the discovery task is dropped, which detaches the task, and neither
the slot nor the sender is taken back.

The calls have the runtime to themselves, but they wait, and the tasks of all starts go on
meanwhile; so the model is a step machine over the call that is under way and the tasks, numbered by
the start that has spawned them.

Main definitions:

* `ProtocolRuntime.World`, `ProtocolRuntime.step` — the runtime, the call under way, the tasks;
* `ProtocolRuntime.errorExit` — the exits of `start_onvif` that return an error;
* `ProtocolRuntime.LeavesNothing` — a failed start and a stop leave nothing behind.

Main results:

* `ProtocolRuntime.soap_stopped` — no SOAP task is ever left behind;
* `ProtocolRuntime.orphan_of_errorExit`, `ProtocolRuntime.orphan_survives` — an error exit leaves the
  discovery task behind, and no later call stops it;
* `ProtocolRuntime.leavesNothing_iff` — **a run leaves nothing behind exactly when no start takes an
  error exit**.
-/

import MibeeEye.StepMachine

set_option relaxedAutoImplicit false
set_option autoImplicit false

namespace ProtocolRuntime

open Machine

/-! ### The runtime and the tasks -/

/-- A task of tokio. -/
inductive Task
  | unspawned
  /-- in `start()` -/
  | starting
  /-- the server is up -/
  | serving
  /-- it has returned, or was aborted -/
  | ended
  deriving DecidableEq, Repr

/-- A task that runs. -/
@[grind =] def Task.running : Task → Bool
  | .starting | .serving => true
  | .unspawned | .ended => false

/-- The readiness channel of a start. -/
inductive Ready
  | pending
  | sent (result : Except String Unit)
  /-- the sender is gone -/
  | closed
  deriving DecidableEq

/-- What `start_onvif` reads of its configuration. -/
structure OnvifRuntimeConfig where
  eventsEnabled : Bool
  deriving DecidableEq, Repr

/-- The ONVIF fields of `ProtocolRuntime`: what is kept is of the start of that number. -/
structure Runtime where
  shutdownTx : Option ℕ := none
  onvifHandle : Option ℕ := none
  discoveryHandle : Option ℕ := none
  onvifEventsSlot : Option ℕ := none
  deriving DecidableEq, Repr

/-- What the last call has returned. -/
inductive Returned
  | stopped
  | started (n : ℕ) (result : Except String Unit)
  deriving DecidableEq

/-- The call under way.  A `stop_onvif` that is made by `start_onvif` keeps its configuration. -/
inductive Call
  | idle (last : Option Returned)
  /-- in `graceful_shutdown`, waiting for the SOAP task of a start -/
  | joining (n : ℕ) (config : Option OnvifRuntimeConfig)
  /-- the stop within `start_onvif` has returned -/
  | preparing (config : OnvifRuntimeConfig)
  /-- before `mount_onvif_services` -/
  | mounting (n : ℕ) (config : OnvifRuntimeConfig)
  /-- waiting for the report of the SOAP task -/
  | waiting (n : ℕ)
  deriving DecidableEq

/-- The runtime, the call under way, and the tasks and channels of every start. -/
structure World where
  runtime : Runtime
  call : Call
  starts : ℕ
  soap : ℕ → Task
  discovery : ℕ → Task
  ready : ℕ → Ready
  signalled : ℕ → Bool

/-- `ProtocolRuntime::new`. -/
def World.new : World where
  runtime := {}
  call := .idle none
  starts := 0
  soap := fun _ => .unspawned
  discovery := fun _ => .unspawned
  ready := fun _ => .pending
  signalled := fun _ => false

namespace World

/-- `JoinHandle::abort` on the SOAP task of a start. -/
def abortSoap (w : World) (n : ℕ) : World := { w with soap := Function.update w.soap n .ended }

/-- `JoinHandle::abort` on a discovery task, if there is a handle. -/
@[grind =] def abortDiscovery (w : World) : Option ℕ → World
  | some n => { w with discovery := Function.update w.discovery n .ended }
  | none => w

/-- `stop_onvif` returns. -/
def afterStop (w : World) : Option OnvifRuntimeConfig → World
  | none => { w with call := .idle (some .stopped) }
  | some config => { w with call := .preparing config }

/-- `graceful_shutdown` up to its wait. -/
def gracefulShutdown (w : World) (tx handle : Option ℕ) (config : Option OnvifRuntimeConfig) :
    World :=
  let w := match tx with
    | some n => { w with signalled := Function.update w.signalled n true }
    | none => w
  match handle with
  | some n => { w with call := .joining n config }
  | none => w.afterStop config

/-- `stop_onvif` up to its wait. -/
def stopOnvif (w : World) (config : Option OnvifRuntimeConfig) : World :=
  let tx := w.runtime.shutdownTx
  let handle := w.runtime.onvifHandle
  let w := { w.abortDiscovery w.runtime.discoveryHandle with runtime := {} }
  if tx.isNone && handle.isNone then w.afterStop config else w.gracefulShutdown tx handle config

/-- `start_onvif` returns. -/
def returns (w : World) (n : ℕ) (result : Except String Unit) : World :=
  { w with call := .idle (some (.started n result)) }

/-- The services of start `n` are mounted: the events slot is filled and the tasks are spawned. -/
def spawn (w : World) (n : ℕ) (config : OnvifRuntimeConfig) : World :=
  { w with
    runtime := { w.runtime with
      onvifEventsSlot := if config.eventsEnabled then some n else none }
    soap := Function.update w.soap n .starting
    discovery := Function.update w.discovery n .starting
    ready := Function.update w.ready n .pending
    call := .waiting n }

/-- The handles of start `n` are kept. -/
def keepHandles (w : World) (n : ℕ) : World :=
  { w with runtime := { w.runtime with onvifHandle := some n, discoveryHandle := some n } }

/-- The SOAP task of a start moves on. -/
def moveSoap (w : World) (n : ℕ) (source target : Task) : Option World :=
  if w.soap n = source then some { w with soap := Function.update w.soap n target } else none

/-- The SOAP task of a start leaves `soap.start()`, and its sender is used or dropped. -/
def report (w : World) (n : ℕ) (ready : Ready) (target : Task) : Option World :=
  (w.moveSoap n .starting target).map fun w =>
    { w with ready := Function.update w.ready n ready }

end World

/-! ### Steps -/

/-- What can happen. -/
inductive Event
  /-- `stop_onvif` is called. -/
  | callStop
  /-- `start_onvif` is called. -/
  | callStart (config : OnvifRuntimeConfig)
  /-- The SOAP task that `graceful_shutdown` waits for has ended. -/
  | joined
  /-- The five seconds are over: it is aborted. -/
  | joinTimeout
  /-- `start_onvif` puts the shutdown sender into the map. -/
  | keepSender
  /-- `mount_onvif_services` fails. -/
  | mountFails (error : String)
  /-- The services are mounted. -/
  | mounted
  /-- The readiness channel has something for `start_onvif`. -/
  | reported
  /-- The ten seconds are over. -/
  | readyTimeout
  /-- `soap.start()` of a start succeeds. -/
  | binds (n : ℕ)
  /-- It fails. -/
  | bindFails (n : ℕ) (error : String)
  /-- The task ends before it has reported. -/
  | dies (n : ℕ)
  /-- The SOAP server exits. -/
  | serverExits (n : ℕ)
  /-- The SOAP task sees the shutdown signal. -/
  | seesSignal (n : ℕ)
  /-- `discovery.start()` of a start succeeds. -/
  | discoveryStarts (n : ℕ)
  /-- It fails, or the discovery server ends. -/
  | discoveryEnds (n : ℕ)

/-- **One step.** -/
@[grind =] def step (w : World) : Event → Option World
  | .callStop =>
      match w.call with
      | .idle _ => some (w.stopOnvif none)
      | _ => none
  | .callStart config =>
      match w.call with
      | .idle _ => some (w.stopOnvif (some config))
      | _ => none
  | .joined =>
      match w.call with
      | .joining n config => if (w.soap n).running then none else some (w.afterStop config)
      | _ => none
  | .joinTimeout =>
      match w.call with
      | .joining n config => some ((w.abortSoap n).afterStop config)
      | _ => none
  | .keepSender =>
      match w.call with
      | .preparing config =>
          some { w with
            runtime := { w.runtime with shutdownTx := some w.starts }
            starts := w.starts + 1
            call := .mounting w.starts config }
      | _ => none
  | .mountFails error =>
      match w.call with
      | .mounting n _ => some (w.returns n (.error error))
      | _ => none
  | .mounted =>
      match w.call with
      | .mounting n config => some (w.spawn n config)
      | _ => none
  | .reported =>
      match w.call with
      | .waiting n =>
          match w.ready n with
          | .pending => none
          | .sent (.ok ()) => some ((w.keepHandles n).returns n (.ok ()))
          | .sent (.error msg) =>
              some ((w.abortSoap n).returns n
                (.error ("ONVIF SOAP listener failed to bind: " ++ msg)))
          | .closed =>
              some ((w.abortSoap n).returns n
                (.error "ONVIF SOAP server task exited before the listener was up"))
      | _ => none
  | .readyTimeout =>
      match w.call with
      | .waiting n =>
          if w.ready n = .pending then
            some ((w.abortSoap n).returns n
              (.error "ONVIF SOAP listener did not report readiness within 10s"))
          else none
      | _ => none
  | .binds n => w.report n (.sent (.ok ())) .serving
  | .bindFails n error => w.report n (.sent (.error error)) .ended
  | .dies n => w.report n .closed .ended
  | .serverExits n => w.moveSoap n .serving .ended
  | .seesSignal n => if w.signalled n then w.moveSoap n .serving .ended else none
  | .discoveryStarts n =>
      if w.discovery n = .starting then
        some { w with discovery := Function.update w.discovery n .serving }
      else none
  | .discoveryEnds n =>
      if (w.discovery n).running then
        some { w with discovery := Function.update w.discovery n .ended }
      else none

/-- `start_onvif` takes an exit that returns an error: the services are not mounted, the bind error
is reported, the report is lost, or it has not come in time. -/
@[grind =] def errorExit (w : World) : Event → Bool
  | .mountFails _ =>
      match w.call with
      | .mounting _ _ => true
      | _ => false
  | .reported =>
      match w.call with
      | .waiting n =>
          match w.ready n with
          | .sent (.error _) | .closed => true
          | .sent (.ok ()) | .pending => false
      | _ => false
  | .readyTimeout =>
      match w.call with
      | .waiting n => w.ready n = .pending
      | _ => false
  | _ => false

/-! ### What a step can do -/

section Steps

variable {w v : World} {a : Event} {k n : ℕ}

/-- A task moves on: the calls see nothing of it, and no task begins. -/
structure Progress (w : World) (a : Event) (v : World) : Prop where
  runtime : v.runtime = w.runtime
  call : v.call = w.call
  starts : v.starts = w.starts
  soap : ∀ k, (v.soap k).running → (w.soap k).running
  discovery : ∀ k, (v.discovery k).running → (w.discovery k).running
  /-- a discovery task stops running in a step of its own -/
  stays : ∀ k, a ≠ .discoveryEnds k → (w.discovery k).running → (v.discovery k).running

/-- The steps, by what they do. -/
inductive Step (w : World) (a : Event) : World → Prop
  | stops {last : Option Returned} (config : Option OnvifRuntimeConfig) (h : w.call = .idle last) :
      Step w a (w.stopOnvif config)
  | joined {n : ℕ} {config : Option OnvifRuntimeConfig} (h : w.call = .joining n config)
      (hn : (w.soap n).running = false) : Step w a (w.afterStop config)
  | joinTimeout {n : ℕ} {config : Option OnvifRuntimeConfig} (h : w.call = .joining n config) :
      Step w a ((w.abortSoap n).afterStop config)
  | keepsSender {config : OnvifRuntimeConfig} (h : w.call = .preparing config) :
      Step w a { w with
        runtime := { w.runtime with shutdownTx := some w.starts }
        starts := w.starts + 1
        call := .mounting w.starts config }
  | mounts {n : ℕ} {config : OnvifRuntimeConfig} (h : w.call = .mounting n config) :
      Step w a (w.spawn n config)
  | ready {n : ℕ} (h : w.call = .waiting n) : Step w a ((w.keepHandles n).returns n (.ok ()))
  | mountFails {n : ℕ} {config : OnvifRuntimeConfig} {e : String}
      (h : w.call = .mounting n config) (he : errorExit w a = true) :
      Step w a (w.returns n (.error e))
  | reportFails {n : ℕ} {e : String} (h : w.call = .waiting n) (he : errorExit w a = true) :
      Step w a ((w.abortSoap n).returns n (.error e))
  | task {v : World} (h : Progress w a v) : Step w a v

/-- A task that has moved on and now runs was running. -/
theorem running_of_update {f : ℕ → Task} {target : Task}
    (hn : target.running → (f n).running) (h : (Function.update f n target k).running) :
    (f k).running := by
  rcases update_cases (p := fun t : Task => t.running = true) h with ⟨rfl, ht⟩ | ⟨-, ht⟩
  · exact hn ht
  · exact ht

/-- A task that runs after one was aborted is another one. -/
theorem running_of_abort {f : ℕ → Task} (h : (Function.update f n .ended k).running) :
    k ≠ n ∧ (f k).running := by
  rcases update_cases (p := fun t : Task => t.running = true) h with ⟨-, ht⟩ | hk
  · cases ht
  · exact hk

theorem progress_moveSoap {source target : Task} (hsource : target.running → source.running)
    (h : w.moveSoap n source target = some v) : Progress w a v := by
  unfold World.moveSoap at h
  split at h
  · rename_i heq
    cases h
    exact ⟨rfl, rfl, rfl, fun k => running_of_update (by rw [heq]; exact hsource), fun _ => id,
      fun _ _ => id⟩
  · cases h

theorem progress_report {ready : Ready} {target : Task}
    (h : w.report n ready target = some v) : Progress w a v := by
  obtain ⟨u, hu, rfl⟩ := Option.map_eq_some_iff.mp h
  obtain ⟨h1, h2, h3, h4, h5, h6⟩ := progress_moveSoap (fun _ => rfl) hu
  exact ⟨h1, h2, h3, h4, h5, h6⟩

theorem progress_discoveryStarts (h : step w (.discoveryStarts n) = some v) :
    Progress w (.discoveryStarts n) v := by
  simp only [step] at h
  split at h
  · rename_i heq
    cases h
    refine ⟨rfl, rfl, rfl, fun _ => id, fun k => running_of_update fun _ => by rw [heq]; rfl,
      fun k _ hk => ?_⟩
    by_cases hkn : k = n
    · subst hkn
      simp [Task.running]
    · simpa [Function.update_of_ne hkn] using hk
  · cases h

theorem progress_discoveryEnds (h : step w (.discoveryEnds n) = some v) :
    Progress w (.discoveryEnds n) v := by
  simp only [step] at h
  split at h
  · cases h
    refine ⟨rfl, rfl, rfl, fun _ => id, fun k => running_of_update (by simp [Task.running]),
      fun k ha hk => ?_⟩
    have hkn : k ≠ n := fun heq => ha (by rw [heq])
    simpa [Function.update_of_ne hkn] using hk
  · cases h

/-- **Every step is one of these.** -/
theorem step_cases (h : step w a = some v) : Step w a v := by
  cases a with
  | callStop =>
      simp only [step] at h
      split at h
      · rename_i last hcall
        cases h
        exact .stops none hcall
      · cases h
  | callStart config =>
      simp only [step] at h
      split at h
      · rename_i last hcall
        cases h
        exact .stops (some config) hcall
      · cases h
  | joined =>
      simp only [step] at h
      split at h
      · rename_i n config hcall
        split at h
        · cases h
        · rename_i hn
          cases h
          exact .joined hcall (by simpa using hn)
      · cases h
  | joinTimeout =>
      simp only [step] at h
      split at h
      · rename_i n config hcall
        cases h
        exact .joinTimeout hcall
      · cases h
  | keepSender =>
      simp only [step] at h
      split at h
      · rename_i config hcall
        cases h
        exact .keepsSender hcall
      · cases h
  | mountFails e =>
      simp only [step] at h
      split at h
      · rename_i n config hcall
        cases h
        exact .mountFails hcall (by simp [errorExit, hcall])
      · cases h
  | mounted =>
      simp only [step] at h
      split at h
      · rename_i n config hcall
        cases h
        exact .mounts hcall
      · cases h
  | reported =>
      simp only [step] at h
      split at h
      · rename_i n hcall
        split at h
        · cases h
        · cases h
          exact .ready hcall
        · rename_i msg hready
          cases h
          exact .reportFails hcall (by simp [errorExit, hcall, hready])
        · rename_i hready
          cases h
          exact .reportFails hcall (by simp [errorExit, hcall, hready])
      · cases h
  | readyTimeout =>
      simp only [step] at h
      split at h
      · rename_i n hcall
        split at h
        · rename_i hready
          cases h
          exact .reportFails hcall (by simp [errorExit, hcall, hready])
        · cases h
      · cases h
  | binds n => exact .task (progress_report h)
  | bindFails n e => exact .task (progress_report h)
  | dies n => exact .task (progress_report h)
  | serverExits n => exact .task (progress_moveSoap (by simp [Task.running]) h)
  | seesSignal n =>
      simp only [step] at h
      split at h
      · exact .task (progress_moveSoap (by simp [Task.running]) h)
      · cases h
  | discoveryStarts n => exact .task (progress_discoveryStarts h)
  | discoveryEnds n => exact .task (progress_discoveryEnds h)

/-- An error exit is taken before the tasks are spawned, or it aborts the SOAP task. -/
theorem errorExit_cases (ha : errorExit w a = true) :
    ∃ n e, (∃ config, w.call = .mounting n config ∧ step w a = some (w.returns n (.error e))) ∨
      (w.call = .waiting n ∧ step w a = some ((w.abortSoap n).returns n (.error e))) := by
  cases a with
  | mountFails e =>
      simp only [errorExit] at ha
      split at ha
      · rename_i n config hcall
        exact ⟨n, e, .inl ⟨config, hcall, by simp only [step, hcall]⟩⟩
      · cases ha
  | reported =>
      simp only [errorExit] at ha
      split at ha
      · rename_i n hcall
        split at ha
        · rename_i msg hready
          exact ⟨n, "ONVIF SOAP listener failed to bind: " ++ msg,
            .inr ⟨hcall, by simp only [step, hcall, hready]⟩⟩
        · rename_i hready
          exact ⟨n, "ONVIF SOAP server task exited before the listener was up",
            .inr ⟨hcall, by simp only [step, hcall, hready]⟩⟩
        · cases ha
        · cases ha
      · cases ha
  | readyTimeout =>
      simp only [errorExit] at ha
      split at ha
      · rename_i n hcall
        exact ⟨n, "ONVIF SOAP listener did not report readiness within 10s",
          .inr ⟨hcall, by simp only [step, hcall, if_pos (of_decide_eq_true ha)]⟩⟩
      · cases ha
  | _ => cases ha

end Steps

/-! ### What a stop does -/

namespace World

variable (w : World) (config : Option OnvifRuntimeConfig)

@[simp] theorem afterStop_runtime : (w.afterStop config).runtime = w.runtime := by
  cases config <;> rfl

@[simp] theorem afterStop_starts : (w.afterStop config).starts = w.starts := by
  cases config <;> rfl

@[simp] theorem afterStop_soap : (w.afterStop config).soap = w.soap := by
  cases config <;> rfl

@[simp] theorem afterStop_discovery : (w.afterStop config).discovery = w.discovery := by
  cases config <;> rfl

@[simp] theorem abortDiscovery_starts (handle : Option ℕ) :
    (w.abortDiscovery handle).starts = w.starts := by
  cases handle <;> rfl

@[simp] theorem abortDiscovery_soap (handle : Option ℕ) :
    (w.abortDiscovery handle).soap = w.soap := by
  cases handle <;> rfl

@[simp] theorem stopOnvif_runtime : (w.stopOnvif config).runtime = {} := by
  unfold stopOnvif gracefulShutdown
  dsimp only
  split
  · simp
  · split <;> split <;> simp

@[simp] theorem stopOnvif_starts : (w.stopOnvif config).starts = w.starts := by
  unfold stopOnvif gracefulShutdown
  dsimp only
  split
  · simp
  · split <;> split <;> simp

@[simp] theorem stopOnvif_soap : (w.stopOnvif config).soap = w.soap := by
  unfold stopOnvif gracefulShutdown
  dsimp only
  split
  · simp
  · split <;> split <;> simp

/-- The discovery task whose handle was kept is aborted. -/
theorem stopOnvif_discovery :
    (w.stopOnvif config).discovery = (w.abortDiscovery w.runtime.discoveryHandle).discovery := by
  unfold stopOnvif gracefulShutdown
  dsimp only
  split
  · simp
  · split <;> split <;> simp

/-- A kept SOAP task is waited for. -/
theorem stopOnvif_call_some {n : ℕ} (h : w.runtime.onvifHandle = some n) :
    (w.stopOnvif config).call = .joining n config := by
  unfold stopOnvif gracefulShutdown
  rw [h]
  simp

/-- The stop waits for a SOAP task, or it returns. -/
theorem stopOnvif_call_cases :
    (∃ n, (w.stopOnvif config).call = .joining n config) ∨
      (w.stopOnvif config).call = .idle (some .stopped) ∨
      ∃ c, (w.stopOnvif config).call = .preparing c := by
  cases h : w.runtime.onvifHandle with
  | some n => exact .inl ⟨n, stopOnvif_call_some w config h⟩
  | none =>
      refine .inr ?_
      unfold stopOnvif gracefulShutdown
      rw [h]
      cases config with
      | none => exact .inl (by dsimp only; split <;> rfl)
      | some c => exact .inr ⟨c, by dsimp only; split <;> rfl⟩

/-- A discovery task that runs after the stop ran before, and its handle was not kept. -/
theorem running_of_stopOnvif {k : ℕ} (h : ((w.stopOnvif config).discovery k).running) :
    (w.discovery k).running ∧ w.runtime.discoveryHandle ≠ some k := by
  rw [stopOnvif_discovery] at h
  cases hd : w.runtime.discoveryHandle with
  | none =>
      rw [hd] at h
      exact ⟨h, nofun⟩
  | some n =>
      rw [hd] at h
      obtain ⟨hk, hrun⟩ := running_of_abort h
      exact ⟨hrun, fun heq => hk (Option.some.inj heq).symm⟩

end World

/-! ### What holds in every run -/

/-- The handles may be kept: the last call was a start that returned `Ok`. -/
def Call.mayKeep : Call → Bool
  | .idle (some (.started _ (.ok ()))) => true
  | .idle _ | .joining _ _ | .preparing _ | .mounting _ _ | .waiting _ => false

/-- The start whose SOAP task the call waits for. -/
def Call.soap : Call → Option ℕ
  | .joining n _ | .waiting n => some n
  | .idle _ | .preparing _ | .mounting _ _ => none

/-- The start whose shutdown sender is kept. -/
def Call.sender : Call → Option ℕ
  | .mounting n _ | .waiting n | .idle (some (.started n (.error _))) => some n
  | .idle _ | .joining _ _ | .preparing _ => none

/-- The invariant of the calls. -/
structure Inv (w : World) : Prop where
  /-- a SOAP task that runs is kept, or waited for -/
  soapHeld : ∀ k, (w.soap k).running → w.runtime.onvifHandle = some k ∨ w.call.soap = some k
  handles : w.call.mayKeep = false →
    w.runtime.onvifHandle = none ∧ w.runtime.discoveryHandle = none
  sender : ∀ n, w.call.sender = some n → w.runtime.shutdownTx = some n ∧ n < w.starts

theorem inv_new : Inv World.new where
  soapHeld k hk := by cases hk
  handles _ := ⟨rfl, rfl⟩
  sender n hn := by cases hn

section Invariant

variable {w v : World} {a : Event} {call : Call} {k : ℕ}

/-- While no handle is kept, only a SOAP task that is waited for runs. -/
theorem Inv.waited (hw : Inv w) (hcall : w.call = call) (hkeep : call.mayKeep = false)
    (hk : (w.soap k).running) : call.soap = some k := by
  subst hcall
  rcases hw.soapHeld k hk with hh | hc
  · rw [(hw.handles hkeep).1] at hh
    cases hh
  · exact hc

/-- **The invariant is kept.** -/
theorem inv_step (hw : Inv w) (h : step w a = some v) : Inv v := by
  cases step_cases h with
  | stops config hcall =>
      refine ⟨fun k hk => ?_, fun _ => by simp, fun n hn => ?_⟩
      · rw [World.stopOnvif_soap] at hk
        rcases hw.soapHeld k hk with hh | hc
        · exact .inr (by rw [World.stopOnvif_call_some w config hh]; rfl)
        · rw [hcall] at hc
          cases hc
      · rcases World.stopOnvif_call_cases w config with ⟨k, hc⟩ | hc | ⟨c, hc⟩ <;>
          rw [hc] at hn <;> cases hn
  | @joined n config hcall hn =>
      have hkeep := hw.handles (by rw [hcall]; rfl)
      refine ⟨fun k hk => ?_, fun _ => by rwa [World.afterStop_runtime], fun m hm => ?_⟩
      · rw [World.afterStop_soap] at hk
        cases hw.waited hcall rfl hk
        rw [hn] at hk
        cases hk
      · cases config <;> cases hm
  | @joinTimeout n config hcall =>
      have hkeep := hw.handles (by rw [hcall]; rfl)
      refine ⟨fun k hk => ?_, fun _ => by rwa [World.afterStop_runtime], fun m hm => ?_⟩
      · rw [World.afterStop_soap] at hk
        obtain ⟨hkn, hk⟩ := running_of_abort hk
        cases hw.waited hcall rfl hk
        exact absurd rfl hkn
      · cases config <;> cases hm
  | @keepsSender config hcall =>
      have hkeep := hw.handles (by rw [hcall]; rfl)
      refine ⟨fun k hk => ?_, fun _ => hkeep, fun m hm => ⟨hm, ?_⟩⟩
      · cases hw.waited hcall rfl hk
      · cases hm
        exact Nat.lt_succ_self _
  | @mounts n config hcall =>
      have hkeep := hw.handles (by rw [hcall]; rfl)
      have htx := hw.sender n (by rw [hcall]; rfl)
      refine ⟨fun k hk => ?_, fun _ => hkeep, fun m hm => ?_⟩
      · rcases update_cases (p := fun t : Task => t.running = true) hk with ⟨rfl, -⟩ | ⟨-, hk⟩
        · exact .inr rfl
        · cases hw.waited hcall rfl hk
      · cases hm
        exact htx
  | @ready n hcall =>
      exact ⟨fun k hk => .inl (hw.waited hcall rfl hk), nofun, nofun⟩
  | @mountFails n config e hcall he =>
      have hkeep := hw.handles (by rw [hcall]; rfl)
      have htx := hw.sender n (by rw [hcall]; rfl)
      refine ⟨fun k hk => ?_, fun _ => hkeep, fun m hm => ?_⟩
      · cases hw.waited hcall rfl hk
      · cases hm
        exact htx
  | @reportFails n e hcall he =>
      have hkeep := hw.handles (by rw [hcall]; rfl)
      have htx := hw.sender n (by rw [hcall]; rfl)
      refine ⟨fun k hk => ?_, fun _ => hkeep, fun m hm => ?_⟩
      · obtain ⟨hkn, hk⟩ := running_of_abort hk
        cases hw.waited hcall rfl hk
        exact absurd rfl hkn
      · cases hm
        exact htx
  | task hp =>
      refine ⟨fun k hk => ?_, ?_, ?_⟩
      · rw [hp.runtime, hp.call]
        exact hw.soapHeld k (hp.soap k hk)
      · rw [hp.runtime, hp.call]
        exact hw.handles
      · rw [hp.runtime, hp.call, hp.starts]
        exact hw.sender

theorem inv_passes {es : List Event} (h : Passes step World.new es w) : Inv w :=
  passes_induction (fun _ _ _ _ hu hv => inv_step hu hv) inv_new h

/-- A call of `stop_onvif` has returned, from outside or within `start_onvif`. -/
def Call.afterStop : Call → Bool
  | .idle (some .stopped) | .preparing _ => true
  | .idle _ | .joining _ _ | .mounting _ _ | .waiting _ => false

theorem Call.of_afterStop (h : call.afterStop = true) :
    call.mayKeep = false ∧ call.soap = none := by
  rcases call with (_ | _ | _) | _ | _ | _ | _ <;> first | exact ⟨rfl, rfl⟩ | cases h

/-- **No SOAP task is ever left behind**: none runs after a failed start, nor after a stop. -/
theorem soap_stopped {es : List Event} (h : Passes step World.new es w)
    (hcall : (∃ n e, w.call = .idle (some (.started n (.error e)))) ∨ w.call.afterStop = true) :
    ∀ k, (w.soap k).running = false := by
  intro k
  have hkeep : w.call.mayKeep = false ∧ w.call.soap = none := by
    rcases hcall with ⟨n, e, hcall⟩ | hcall
    · rw [hcall]
      exact ⟨rfl, rfl⟩
    · exact Call.of_afterStop hcall
  by_contra hk
  have hc := (inv_passes h).waited rfl hkeep.1 (by simpa using hk)
  rw [hkeep.2] at hc
  cases hc

end Invariant

/-! ### Discovery tasks that are left behind -/

section Orphans

variable {w v : World} {a : Event} {k : ℕ}

/-- The discovery task of a start runs, and nothing leads to it any more. -/
structure Orphan (k : ℕ) (w : World) : Prop where
  running : (w.discovery k).running = true
  started : k < w.starts
  dropped : w.runtime.discoveryHandle ≠ some k
  passed : w.call ≠ .waiting k ∧ ∀ config, w.call ≠ .mounting k config

/-- No call changes it. -/
theorem orphan_step (hw : Orphan k w) (ha : a ≠ .discoveryEnds k) (h : step w a = some v) :
    Orphan k v := by
  cases step_cases h with
  | stops config hcall =>
      refine ⟨?_, ?_, ?_, ?_⟩
      · rw [World.stopOnvif_discovery]
        cases hd : w.runtime.discoveryHandle with
        | none => exact hw.running
        | some n =>
            have hkn : k ≠ n := fun heq => hw.dropped (by rw [hd, heq])
            simpa [World.abortDiscovery, Function.update_of_ne hkn] using hw.running
      · rw [World.stopOnvif_starts]
        exact hw.started
      · rw [World.stopOnvif_runtime]
        exact nofun
      · rcases World.stopOnvif_call_cases w config with ⟨n, hc⟩ | hc | ⟨c, hc⟩ <;>
          rw [hc] <;> exact ⟨nofun, nofun⟩
  | @joined n config hcall hn =>
      cases config <;> exact ⟨hw.running, hw.started, hw.dropped, nofun, nofun⟩
  | @joinTimeout n config hcall =>
      cases config <;> exact ⟨hw.running, hw.started, hw.dropped, nofun, nofun⟩
  | @keepsSender config hcall =>
      refine ⟨hw.running, by have := hw.started; simp only; omega, hw.dropped, nofun, ?_⟩
      intro c hc
      have hk := hw.started
      cases hc
      omega
  | @mounts n config hcall =>
      have hkn : k ≠ n := fun heq => hw.passed.2 config (by rw [hcall, heq])
      refine ⟨?_, hw.started, hw.dropped, ?_, nofun⟩
      · simpa [World.spawn, Function.update_of_ne hkn] using hw.running
      · intro hc
        cases hc
        exact hkn rfl
  | @ready n hcall =>
      refine ⟨hw.running, hw.started, ?_, nofun, nofun⟩
      intro hc
      cases hc
      exact hw.passed.1 hcall
  | mountFails hcall he => exact ⟨hw.running, hw.started, hw.dropped, nofun, nofun⟩
  | reportFails hcall he => exact ⟨hw.running, hw.started, hw.dropped, nofun, nofun⟩
  | task hp =>
      refine ⟨hp.stays k ha hw.running, ?_, ?_, ?_⟩
      · rw [hp.starts]
        exact hw.started
      · rw [hp.runtime]
        exact hw.dropped
      · rw [hp.call]
        exact hw.passed

/-- An error exit after the tasks have been spawned leaves the discovery task behind. -/
theorem orphan_of_errorExit (hw : Inv w) (hcall : w.call = .waiting k)
    (hk : (w.discovery k).running) (ha : errorExit w a = true) (h : step w a = some v) :
    Orphan k v := by
  have hstarted := (hw.sender k (by rw [hcall]; rfl)).2
  have hhandle := (hw.handles (by rw [hcall]; rfl)).2
  obtain ⟨n, e, ⟨config, hc, hv⟩ | ⟨hc, hv⟩⟩ := errorExit_cases ha
  · rw [hcall] at hc
    cases hc
  · rw [h] at hv
    cases hv
    refine ⟨hk, hstarted, ?_, nofun, nofun⟩
    rw [World.returns, World.abortSoap, hhandle]
    exact nofun

/-- **A discovery task that is left behind runs until it ends by itself**, whatever is started and
stopped meanwhile. -/
theorem orphan_survives {es : List Event} (hw : Orphan k w)
    (hes : ∀ a ∈ es, a ≠ .discoveryEnds k) (h : exec step w es = some v) : Orphan k v :=
  exec_invariant (P := fun a => a ≠ .discoveryEnds k) (fun _ _ _ ha hu hv => orphan_step hu ha hv)
    hes hw h

end Orphans

/-! ### Runs that leave nothing behind -/

/-- **Nothing is left behind**: after a start that returned an error neither of its tasks runs, the
events slot is empty, and no sender or handle is kept; and after a stop no task of any start runs. -/
structure LeavesNothing (w : World) : Prop where
  failed : ∀ n e, w.call = .idle (some (.started n (.error e))) →
    (w.soap n).running = false ∧ (w.discovery n).running = false ∧ w.runtime = {}
  stopped : w.call.afterStop = true →
    ∀ n, (w.soap n).running = false ∧ (w.discovery n).running = false

/-- As long as no start has failed: every discovery task that runs is kept, or its start is waiting
for the SOAP task. -/
structure Held (w : World) : Prop where
  discovery : ∀ k, (w.discovery k).running →
    w.runtime.discoveryHandle = some k ∨ w.call = .waiting k
  succeeded : ∀ n e, w.call ≠ .idle (some (.started n (.error e)))

section Runs

variable {w v : World} {a : Event} {call : Call} {k : ℕ}

/-- While no handle is kept, only a discovery task of a start that is waiting runs. -/
theorem Held.waited (hheld : Held w) (hw : Inv w) (hcall : w.call = call)
    (hkeep : call.mayKeep = false) (hk : (w.discovery k).running) : call = .waiting k := by
  subst hcall
  rcases hheld.discovery k hk with hh | hc
  · rw [(hw.handles hkeep).2] at hh
    cases hh
  · exact hc

theorem held_step (hheld : Held w) (hw : Inv w) (ha : errorExit w a = false)
    (h : step w a = some v) : Held v := by
  cases step_cases h with
  | stops config hcall =>
      refine ⟨fun k hk => ?_, fun n e hc => ?_⟩
      · obtain ⟨hrun, hhandle⟩ := World.running_of_stopOnvif w config hk
        rcases hheld.discovery k hrun with hh | hc
        · exact absurd hh hhandle
        · rw [hcall] at hc
          cases hc
      · rcases World.stopOnvif_call_cases w config with ⟨m, hm⟩ | hm | ⟨c, hm⟩ <;>
          rw [hm] at hc <;> cases hc
  | @joined n config hcall hn =>
      refine ⟨fun k hk => ?_, fun n e hc => by cases config <;> cases hc⟩
      rw [World.afterStop_discovery] at hk
      cases hheld.waited hw hcall rfl hk
  | @joinTimeout n config hcall =>
      refine ⟨fun k hk => ?_, fun n e hc => by cases config <;> cases hc⟩
      rw [World.afterStop_discovery] at hk
      cases hheld.waited hw hcall rfl hk
  | @keepsSender config hcall =>
      refine ⟨fun k hk => ?_, nofun⟩
      cases hheld.waited hw hcall rfl hk
  | @mounts n config hcall =>
      refine ⟨fun k hk => ?_, nofun⟩
      rcases update_cases (p := fun t : Task => t.running = true) hk with ⟨rfl, -⟩ | ⟨-, hk⟩
      · exact .inr rfl
      · cases hheld.waited hw hcall rfl hk
  | @ready n hcall =>
      refine ⟨fun k hk => .inl ?_, nofun⟩
      cases hheld.waited hw hcall rfl hk
      rfl
  | mountFails hcall he =>
      rw [ha] at he
      cases he
  | reportFails hcall he =>
      rw [ha] at he
      cases he
  | task hp =>
      refine ⟨fun k hk => ?_, ?_⟩
      · rw [hp.runtime, hp.call]
        exact hheld.discovery k (hp.discovery k hk)
      · rw [hp.call]
        exact hheld.succeeded

/-- What follows from the invariants. -/
theorem Held.leavesNothing (hheld : Held w) (hw : Inv w) : LeavesNothing w := by
  refine ⟨fun n e hcall => absurd hcall (hheld.succeeded n e), fun hstop n => ?_⟩
  obtain ⟨hkeep, hsoap⟩ := Call.of_afterStop hstop
  refine ⟨?_, ?_⟩
  · by_contra hn
    rw [hw.waited rfl hkeep (by simpa using hn)] at hsoap
    cases hsoap
  · by_contra hn
    rw [hheld.waited hw rfl hkeep (by simpa using hn)] at hsoap
    cases hsoap

/-- **A run leaves nothing behind exactly when no start takes an error exit.** -/
theorem leavesNothing_iff (es : List Event) :
    (∀ w, Passes step World.new es w → LeavesNothing w) ↔
      ∀ w a, Occurs step World.new es w a → errorExit w a = false := by
  constructor
  · intro hall w a hoccurs
    by_contra ha
    obtain ⟨v, n, e, hv, hcall⟩ : ∃ v n e, step w a = some v ∧
        v.call = .idle (some (.started n (.error e))) := by
      obtain ⟨n, e, ⟨_, -, hv⟩ | ⟨-, hv⟩⟩ := errorExit_cases (by simpa using ha)
      · exact ⟨_, n, e, hv, rfl⟩
      · exact ⟨_, n, e, hv, rfl⟩
    have hpass := hoccurs.passes hv
    -- the sender of the start that failed is still there
    have hsender := ((inv_passes hpass).sender n (by rw [hcall]; rfl)).1
    rw [((hall v hpass).failed n e hcall).2.2] at hsender
    cases hsender
  · intro hno w hpass
    have hboth : Inv w ∧ Held w :=
      passes_induction (I := fun w => Inv w ∧ Held w)
        (fun u a v hu hI hv => ⟨inv_step hI.1 hv, held_step hI.2 hI.1 (hno u a hu) hv⟩)
        ⟨inv_new, nofun, nofun⟩ hpass
    exact hboth.2.leavesNothing hboth.1

/-- A start on a port that is taken, with events enabled: the bind fails and the start returns the
error. -/
def bindFailure : List Event :=
  [.callStart ⟨true⟩, .keepSender, .mounted, .discoveryStarts 0,
    .bindFails 0 "Address already in use (os error 98)", .reported]

/-- After it the discovery task runs, and the events slot is filled and the sender kept; after a stop
the discovery task still runs. -/
theorem bindFailure_leaves :
    ((exec step World.new bindFailure).map fun w => (w.discovery 0, w.runtime)) =
      some (.serving, { shutdownTx := some 0, onvifEventsSlot := some 0 }) ∧
    ((exec step World.new (bindFailure ++ [.callStop])).map fun w => (w.call, w.discovery 0)) =
      some (.idle (some .stopped), .serving) ∧
    ¬ ∀ w, Passes step World.new (bindFailure ++ [.callStop]) w → LeavesNothing w := by
  have hstop : ((exec step World.new (bindFailure ++ [.callStop])).map
      fun w => (w.call, w.discovery 0)) = some (.idle (some .stopped), .serving) := by decide
  refine ⟨by decide, hstop, fun hall => ?_⟩
  obtain ⟨w, hw, heq⟩ := Option.map_eq_some_iff.mp hstop
  obtain ⟨hcall, hdiscovery⟩ := Prod.mk.inj heq
  have hended := ((hall w ⟨_, List.prefix_rfl, hw⟩).stopped (by rw [hcall]; rfl) 0).2
  rw [hdiscovery] at hended
  cases hended

end Runs

end ProtocolRuntime
