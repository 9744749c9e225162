/-
**One pipeline per camera.**

`StreamManager` in `crates/web/src/stream_manager.rs` keeps a map of the streams it runs.  A call of
`create_stream` takes a permit, looks the camera up in the map, creates the source, registers the
mounts and the segment slot, runs the hub, and puts the handle into the map; a call of `stop_stream`
takes the handle out of the map, drops the slot and the mounts, and tells the hub to stop.  There are
awaits between these, so the calls are interleaved, and the model is a step machine over all calls:
one step is what a call does from one await to the next.

The camera is looked up long before its handle is put into the map, and nothing is reserved in
between.  The permit is dropped when `create_stream` returns, and it does not count the streams in
the map.

Main definitions:

* `StreamManager.Call`, `StreamManager.Manager` — the calls, and what they share;
* `StreamManager.ManagerEvent`, `StreamManager.managerStep` — what the calls and the hubs do;
* `StreamManager.OnePipeline` — what is to hold in every state;
* `StreamManager.Undisturbed` — the steps after which it holds.

Main results:

* `StreamManager.inv_managerStep` — the invariant is kept by every such step;
* `StreamManager.onePipeline_passes` — **each camera has one pipeline, in every state that an
  execution of such steps passes through**.
-/

import MibeeEye.StreamMounts
import MibeeEye.StreamPermits

set_option relaxedAutoImplicit false
set_option autoImplicit false

namespace StreamManager

open Machine StreamHub

/-! ### Calls -/

/-- Where a call of `create_stream` is. -/
inductive CreatePhase
  /-- It has its permit and waits for the map. -/
  | guarded
  /-- The camera is not in the map; the source is being created. -/
  | checked
  /-- `live/{id}` is registered. -/
  | mounted
  /-- `live/{id}/sub` is registered. -/
  | submounted
  /-- The segment slot is registered. -/
  | recorded
  /-- The hub runs, and the call waits for the map. -/
  | running
  deriving DecidableEq, Repr

/-- From the mounts on, `create_stream` does not fail any more. -/
def CreatePhase.committed : CreatePhase → Bool
  | guarded | checked => false
  | mounted | submounted | recorded | running => true

/-- A call.  The calls are numbered in the order in which they begin; a call of `create_stream` that
has returned keeps the number of the first call that began after it returned.  A call of
`stop_stream` is `alone` while no other call is active or has begun since it began. -/
inductive Call
  | unused
  | creating (config : CameraConfig) (phase : CreatePhase)
  | created (config : CameraConfig) (ended : ℕ)
  | failed (config : CameraConfig) (ended : ℕ)
  | stopping (cameraId : String) (alone : Bool)
  | stopped (cameraId : String) (alone : Bool)
  /-- `stop_stream` has found no stream. -/
  | notFound
  deriving DecidableEq, Repr

namespace Call

/-- What a call of `create_stream` was given. -/
@[grind =] def request : Call → Option CameraConfig
  | creating c _ | created c _ | failed c _ => some c
  | unused | stopping _ _ | stopped _ _ | notFound => none

/-- The call has begun and has not returned. -/
def active : Call → Bool
  | creating _ _ | stopping _ _ => true
  | unused | created _ _ | failed _ _ | stopped _ _ | notFound => false

/-- A call of `create_stream` that has registered its mounts. -/
@[grind =] def committed : Call → Bool
  | creating _ phase => phase.committed
  | created _ _ => true
  | unused | failed _ _ | stopping _ _ | stopped _ _ | notFound => false

/-- A call of `create_stream` that has returned `Ok`. -/
@[grind =] def succeeded : Call → Bool
  | created _ _ => true
  | unused | creating _ _ | failed _ _ | stopping _ _ | stopped _ _ | notFound => false

/-- A call of `create_stream` that had not returned when call number `k` began. -/
@[grind =] def lasts (k : ℕ) : Call → Bool
  | creating _ _ => true
  | created _ ended | failed _ ended => k < ended
  | unused | stopping _ _ | stopped _ _ | notFound => false

/-- Another call has begun. -/
@[grind =] def disturbed : Call → Call
  | stopping cameraId _ => stopping cameraId false
  | stopped cameraId _ => stopped cameraId false
  | call => call

end Call

/-! ### The manager -/

/-- `StreamHandle`: the call whose hub it is for, and the mounts to be released. -/
structure StreamHandle where
  cameraId : String
  pipeline : ℕ
  rtspMounts : List String
  deriving DecidableEq, Repr

/-- The mounts that `create_stream` registers for a camera. -/
def CameraConfig.mainMount (c : CameraConfig) : List String :=
  if c.rtspServer then [Mount.main.path c.cameraId] else []

/-- See `CameraConfig.mainMount`. -/
def CameraConfig.subMount (c : CameraConfig) : List String :=
  if c.substream ∧ c.rtspServer then [Mount.sub.path c.cameraId] else []

/-- See `CameraConfig.mainMount`. -/
def CameraConfig.rtspMounts (c : CameraConfig) : List String := c.mainMount ++ c.subMount

/-- The handle that call `n` puts into the map. -/
def CameraConfig.handle (c : CameraConfig) (n : ℕ) : StreamHandle :=
  { cameraId := c.cameraId, pipeline := n, rtspMounts := c.rtspMounts }

/-- The manager, the calls on it, and what they share: the hubs with the permits, the map of the
streams, the mounts of the server and the segment slots.  Hub `n` is the one that call `n` creates; a
mount or slot is kept with the call that has registered it last. -/
structure Manager where
  hubs : World ℕ
  next : ℕ
  calls : ℕ → Call
  streams : List StreamHandle
  registered : String → Option ℕ
  segmentSlots : String → Option ℕ

/-- A manager with a number of permits, before any call. -/
def Manager.new (maxStreams : ℕ) (pos : 0 < maxStreams) : Manager where
  hubs := World.initial maxStreams pos
  next := 0
  calls := fun _ => .unused
  streams := []
  registered := fun _ => none
  segmentSlots := fun _ => none

namespace Manager

/-- The handle of a camera. -/
def handle? (s : Manager) (cameraId : String) : Option StreamHandle :=
  s.streams.find? fun h => h.cameraId == cameraId

/-- No call is active. -/
def idle (s : Manager) : Bool := (List.range s.next).all fun k => !(s.calls k).active

/-- A call begins. -/
def begins (s : Manager) (call : Call) : Manager :=
  { s with
    next := s.next + 1
    calls := Function.update (fun k => (s.calls k).disturbed) s.next call }

/-- A call moves on. -/
def setCall (s : Manager) (n : ℕ) (call : Call) : Manager :=
  { s with calls := Function.update s.calls n call }

/-- A permit is dropped. -/
def dropPermit (s : Manager) : Manager :=
  { s with hubs := { s.hubs with resource := s.hubs.resource.release } }

/-- `RtspServer::register_live_stream` by call `n`, for each path. -/
def register (s : Manager) (n : ℕ) (paths : List String) : Manager :=
  { s with registered := fun p => if p ∈ paths then some n else s.registered p }

/-- `RtspServer::unregister_live_stream`, for each path. -/
def unregister (s : Manager) (paths : List String) : Manager :=
  { s with registered := fun p => if p ∈ paths then none else s.registered p }

/-- The slot of a camera is put into or taken out of the registry. -/
def setSlot (s : Manager) (cameraId : String) (slot : Option ℕ) : Manager :=
  { s with segmentSlots := Function.update s.segmentSlots cameraId slot }

/-- The monitor task of a stream stops its hub: it is woken by the stop signal, and also when the
sender of the signal is dropped with the handle. -/
def signalStop (s : Manager) (handle : StreamHandle) : Manager :=
  { s with hubs := (StreamHub.step s.hubs (.stop handle.pipeline)).getD s.hubs }

/-- The handle of a camera is taken out of the map. -/
def removeHandle (s : Manager) (cameraId : String) : Manager :=
  { s with streams := s.streams.filter fun h => h.cameraId != cameraId }

/-- A handle is put into the map; one that it replaces is dropped. -/
def insertHandle (s : Manager) (handle : StreamHandle) : Manager :=
  let dropped := match s.handle? handle.cameraId with
    | some old => s.signalStop old
    | none => s
  { dropped.removeHandle handle.cameraId with
    streams := handle :: (dropped.removeHandle handle.cameraId).streams }

/-- `create_stream` returns an error, and the permit goes with it. -/
def fails (s : Manager) (n : ℕ) (c : CameraConfig) : Manager :=
  (s.setCall n (.failed c s.next)).dropPermit

/-- `create_stream` stores the handle and returns, and the permit goes with it. -/
def finishes (s : Manager) (n : ℕ) (c : CameraConfig) : Manager :=
  ((s.insertHandle (c.handle n)).setCall n (.created c s.next)).dropPermit

/-- `stop_stream` until it waits for the pipeline. -/
def stops (s : Manager) (handle : StreamHandle) : Manager :=
  ((((s.begins (.stopping handle.cameraId s.idle)).removeHandle handle.cameraId).setSlot
    handle.cameraId none).unregister handle.rtspMounts).signalStop handle

end Manager

/-! ### Steps -/

/-- What can happen. -/
inductive ManagerEvent
  /-- `create_stream` is called: it takes a permit or fails. -/
  | createBegins (config : CameraConfig)
  /-- It looks the camera up in the map. -/
  | createChecks (n : ℕ)
  /-- The configuration is no good, or the source cannot be created. -/
  | createFails (n : ℕ)
  /-- The source is created and `live/{id}` registered. -/
  | createMounts (n : ℕ)
  /-- `live/{id}/sub` is registered. -/
  | createSubMounts (n : ℕ)
  /-- The recording configuration has been read, and the slot registered if it is enabled. -/
  | createRecords (n : ℕ) (enabled : Bool)
  /-- The hub runs, and the await of the map suspends the call. -/
  | createRuns (n : ℕ)
  /-- The suspended call goes on, and stores its handle. -/
  | createStores (n : ℕ)
  /-- The hub runs, the await of the map does not suspend the call, and the handle is stored. -/
  | createFinishes (n : ℕ)
  /-- `stop_stream` is called. -/
  | stopBegins (cameraId : String)
  /-- The pipeline has ended, or the time is over. -/
  | stopReturns (n : ℕ)
  /-- A hub's tasks do something. -/
  | hub (event : StreamHub.Event ℕ)

/-- Not `run` and `stop`, which the manager calls. -/
def ofTasks : StreamHub.Event ℕ → Bool
  | .run _ | .stop _ => false
  | .acquire _ | .acquireFails _ | .leaveArm _ | .sourceStarts _ | .sourceStartFails _ | .frame _
  | .sourceFails _ | .seesStop _ | .sourceStops _ | .close => true

/-- `StreamHub::run` of the hub of call `n`. -/
def Manager.runHub (s : Manager) (n : ℕ) : Option Manager :=
  (StreamHub.step s.hubs (.run n)).map fun hubs => { s with hubs }

/-- **One step.** -/
@[grind =] def managerStep (s : Manager) : ManagerEvent → Option Manager
  | .createBegins c =>
      match s.hubs.resource.tryAcquire with
      | some resource =>
          some { s.begins (.creating c .guarded) with hubs := { s.hubs with resource } }
      | none => some (s.begins (.failed c (s.next + 1)))
  | .createChecks n =>
      match s.calls n with
      | .creating c .guarded =>
          match s.handle? c.cameraId with
          | some _ => some (s.fails n c)
          | none => some (s.setCall n (.creating c .checked))
      | _ => none
  | .createFails n =>
      match s.calls n with
      | .creating c .checked => some (s.fails n c)
      | _ => none
  | .createMounts n =>
      match s.calls n with
      | .creating c .checked => some ((s.setCall n (.creating c .mounted)).register n c.mainMount)
      | _ => none
  | .createSubMounts n =>
      match s.calls n with
      | .creating c .mounted => some ((s.setCall n (.creating c .submounted)).register n c.subMount)
      | _ => none
  | .createRecords n enabled =>
      match s.calls n with
      | .creating c .submounted =>
          let recorded := s.setCall n (.creating c .recorded)
          some (if enabled then recorded.setSlot c.cameraId (some n) else recorded)
      | _ => none
  | .createRuns n =>
      match s.calls n with
      | .creating c .recorded => (s.runHub n).map fun t => t.setCall n (.creating c .running)
      | _ => none
  | .createStores n =>
      match s.calls n with
      | .creating c .running => some (s.finishes n c)
      | _ => none
  | .createFinishes n =>
      match s.calls n with
      | .creating c .recorded => (s.runHub n).map fun t => t.finishes n c
      | _ => none
  | .stopBegins cameraId =>
      match s.handle? cameraId with
      | some handle => some (s.stops handle)
      | none => some (s.begins .notFound)
  | .stopReturns n =>
      match s.calls n with
      | .stopping cameraId alone => some (s.setCall n (.stopped cameraId alone))
      | _ => none
  | .hub event =>
      if ofTasks event then (StreamHub.step s.hubs event).map fun hubs => { s with hubs } else none

/-! ### What is to hold -/

namespace Manager

/-- The pipeline of call `k` runs and is not being stopped. -/
def Live (s : Manager) (k : ℕ) : Prop :=
  (s.hubs.hubs k).phase ≠ .idle ∧ (s.hubs.hubs k).phase ≠ .done ∧ (s.hubs.hubs k).stopped = false

/-- Two calls of `create_stream` for one camera, neither of which had returned when the other
began. -/
def Overlap (s : Manager) (k l : ℕ) : Prop :=
  k ≠ l ∧ (s.calls k).lasts l = true ∧ (s.calls l).lasts k = true ∧
    (s.calls k).request.map CameraConfig.cameraId = (s.calls l).request.map CameraConfig.cameraId

instance (s : Manager) (k l : ℕ) : Decidable (s.Overlap k l) :=
  inferInstanceAs (Decidable (_ ∧ _ ∧ _ ∧ _))

end Manager

/-- **One pipeline per camera.** -/
structure OnePipeline (s : Manager) : Prop where
  /-- A camera has at most one live pipeline. -/
  one : ∀ k l, s.Live k → s.Live l →
    (s.calls k).request.map CameraConfig.cameraId = (s.calls l).request.map CameraConfig.cameraId →
      k = l
  /-- A live pipeline is tracked under its camera. -/
  tracked : ∀ k, s.Live k → ∃ handle ∈ s.streams, handle.pipeline = k ∧
    (s.calls k).request.map CameraConfig.cameraId = some handle.cameraId
  /-- A call that overlaps a successful one for the same camera does not succeed. -/
  exclusive : ∀ k l, s.Overlap k l → (s.calls k).succeeded = true → (s.calls l).succeeded = false
  /-- A call that fails leaves no mount, no slot and no pipeline behind. -/
  clean : ∀ n c ended, s.calls n = .failed c ended →
    (∀ path, s.registered path ≠ some n) ∧ (∀ cameraId, s.segmentSlots cameraId ≠ some n) ∧
      (s.hubs.hubs n).phase = .idle
  /-- No more streams are tracked than there are permits. -/
  bounded : s.streams.length ≤ s.hubs.resource.maxStreams
  /-- After `stop_stream` has returned, with no other call active, the mounts are gone. -/
  unmounted : ∀ n cameraId, s.calls n = .stopped cameraId true →
    ∀ mount : Mount, s.registered (mount.path cameraId) = none

/-! ### The steps after which it holds -/

/-- The camera ids are not those of one camera and its substream. -/
def Unrelated (c d : CameraConfig) : Prop :=
  c.cameraId ≠ d.cameraId ++ "/sub" ∧ d.cameraId ≠ c.cameraId ++ "/sub"

/-- **The steps that do not disturb another call.**  A camera is not named like the substream of
another one; when a call registers its mounts, no call that it overlaps has done so; the map is not
full when a handle is stored; and the call is not suspended between running the hub and storing the
handle. -/
def Undisturbed (s : Manager) : ManagerEvent → Prop
  | .createBegins c => ∀ k < s.next, ∀ d ∈ (s.calls k).request, Unrelated c d
  | .createMounts n => ∀ k < s.next, s.Overlap n k → (s.calls k).committed = false
  | .createFinishes _ => s.streams.length < s.hubs.resource.maxStreams
  | .createRuns _ => False
  | .createChecks _ | .createFails _ | .createSubMounts _ | .createRecords _ _ | .createStores _
  | .stopBegins _ | .stopReturns _ | .hub _ => True

instance (c d : CameraConfig) : Decidable (Unrelated c d) :=
  inferInstanceAs (Decidable (_ ∧ _))

instance (s : Manager) : DecidablePred (Undisturbed s)
  | .createBegins c =>
      inferInstanceAs (Decidable (∀ k < s.next, ∀ d ∈ (s.calls k).request, Unrelated c d))
  | .createMounts n =>
      inferInstanceAs (Decidable (∀ k < s.next, s.Overlap n k → (s.calls k).committed = false))
  | .createFinishes _ =>
      inferInstanceAs (Decidable (s.streams.length < s.hubs.resource.maxStreams))
  | .createRuns _ => inferInstanceAs (Decidable False)
  | .createChecks _ | .createFails _ | .createSubMounts _ | .createRecords _ _ | .createStores _
  | .stopBegins _ | .stopReturns _ | .hub _ => inferInstanceAs (Decidable True)

/-! ### The invariant -/

/-- What the steps keep. -/
structure Inv (s : Manager) : Prop where
  fresh : ∀ k, s.next ≤ k → s.calls k = .unused ∧ (s.hubs.hubs k).phase = .idle
  ran : ∀ k, (s.hubs.hubs k).phase ≠ .idle → (s.calls k).succeeded = true
  handle : ∀ h ∈ s.streams, ∃ c ended, s.calls h.pipeline = .created c ended ∧
    h = c.handle h.pipeline
  nodup : (s.streams.map StreamHandle.cameraId).Nodup
  live : ∀ k, s.Live k → ∃ h ∈ s.streams, h.pipeline = k
  exclusive : ∀ k l, s.Overlap k l → (s.calls k).committed = true → (s.calls l).committed = false
  /-- A call that has looked its camera up began before the call that has put a handle there
  returned. -/
  late : ∀ n c phase, s.calls n = .creating c phase → phase ≠ .guarded →
    ∀ h ∈ s.streams, h.cameraId = c.cameraId → (s.calls h.pipeline).lasts n = true
  notRunning : ∀ n c, s.calls n ≠ .creating c .running
  /-- A registered mount is to be released by a handle, now or when its call stores one. -/
  owned : ∀ path k, s.registered path = some k →
    (∃ c phase, s.calls k = .creating c phase ∧ phase.committed = true ∧ path ∈ c.rtspMounts) ∨
      ∃ h ∈ s.streams, h.pipeline = k ∧ path ∈ h.rtspMounts
  slots : ∀ cameraId k, s.segmentSlots cameraId = some k → (s.calls k).committed = true
  alone : ∀ n cameraId, s.calls n = .stopping cameraId true ∨ s.calls n = .stopped cameraId true →
    (∀ k, k ≠ n → (s.calls k).active = false) ∧
      ∀ mount : Mount, s.registered (mount.path cameraId) = none
  unrelated : ∀ k l, ∀ c ∈ (s.calls k).request, ∀ d ∈ (s.calls l).request,
    c.cameraId ≠ d.cameraId ++ "/sub"
  bounded : s.streams.length ≤ s.hubs.resource.maxStreams

/-! ### Hubs that do not start -/

/-- A hub that has not been started since. -/
structure Quieter (h h' : Hub) : Prop where
  idle : h.phase = .idle → h'.phase = .idle
  done : h.phase = .done → h'.phase = .done
  stopped : h.stopped = true → h'.stopped = true

theorem Quieter.refl (h : Hub) : Quieter h h := ⟨id, id, id⟩

/-- One hub becomes quieter. -/
theorem quieter_update {w : World ℕ} {i : ℕ} {h : Hub} (hi : Quieter (w.hubs i) h) (k : ℕ) :
    Quieter (w.hubs k) (Function.update w.hubs i h k) := by
  by_cases hk : k = i
  · subst hk
    rw [Function.update_self]
    exact hi
  · rw [Function.update_of_ne hk]
    exact Quieter.refl _

/-- A task that moves on has been started and has not ended. -/
theorem quieter_move {w : World ℕ} {i : ℕ} {r : ResourceController} {q : StreamHub.Phase}
    (hidle : (w.hubs i).phase ≠ .idle) (hdone : (w.hubs i).phase ≠ .done) (k : ℕ) :
    Quieter (w.hubs k) ((w.move i r q).hubs k) := by
  have hi : Quieter (w.hubs i) { w.hubs i with phase := q } :=
    ⟨fun h => absurd h hidle, fun h => absurd h hdone, id⟩
  exact quieter_update hi k

theorem quieter_goto {w w' : World ℕ} {i : ℕ} {q q' : StreamHub.Phase}
    (h : w.goto i q q' = some w') (hidle : q ≠ .idle) (hdone : q ≠ .done) :
    w'.resource.maxStreams = w.resource.maxStreams ∧ ∀ k, Quieter (w.hubs k) (w'.hubs k) := by
  obtain ⟨hq, rfl⟩ := goto_eq_some h
  subst hq
  exact ⟨rfl, quieter_move hidle hdone⟩

/-- **The tasks of a hub do not start a hub.** -/
theorem quieter_tasks {w w' : World ℕ} {e : StreamHub.Event ℕ} (he : ofTasks e = true)
    (h : StreamHub.step w e = some w') :
    w'.resource.maxStreams = w.resource.maxStreams ∧ ∀ k, Quieter (w.hubs k) (w'.hubs k) := by
  cases e with
  | run i => cases he
  | acquire i =>
      simp only [StreamHub.step] at h
      split at h
      · rename_i hphase
        obtain ⟨r, hr, rfl⟩ := Option.map_eq_some_iff.1 h
        refine ⟨?_, quieter_move (by simp [hphase]) (by simp [hphase])⟩
        simp only [ResourceController.tryAcquire] at hr
        split at hr
        · cases hr
          rfl
        · cases hr
      · cases h
  | acquireFails i =>
      simp only [StreamHub.step] at h
      split at h
      · exact quieter_goto h (by decide) (by decide)
      · cases h
  | leaveArm i =>
      simp only [StreamHub.step] at h
      split at h
      · rename_i hphase
        cases h
        exact ⟨rfl, quieter_move (by simp [hphase]) (by simp [hphase])⟩
      · cases h
  | sourceStarts i => exact quieter_goto h (by decide) (by decide)
  | sourceStartFails i => exact quieter_goto h (by decide) (by decide)
  | frame i => exact quieter_goto h (by decide) (by decide)
  | sourceFails i => exact quieter_goto h (by decide) (by decide)
  | stop i => cases he
  | seesStop i =>
      simp only [StreamHub.step] at h
      split at h
      · exact quieter_goto h (by decide) (by decide)
      · cases h
  | sourceStops i => exact quieter_goto h (by decide) (by decide)
  | close =>
      cases h
      exact ⟨rfl, fun k => Quieter.refl _⟩

/-- The invariant does not mind hubs that become quieter. -/
theorem inv_quieter {s : Manager} {w : World ℕ} (hs : Inv s)
    (hmax : w.resource.maxStreams = s.hubs.resource.maxStreams)
    (hw : ∀ k, Quieter (s.hubs.hubs k) (w.hubs k)) : Inv { s with hubs := w } where
  fresh := fun k hk => ⟨(hs.fresh k hk).1, (hw k).idle (hs.fresh k hk).2⟩
  ran := fun k hk => hs.ran k fun h => hk ((hw k).idle h)
  handle := hs.handle
  nodup := hs.nodup
  live := by
    rintro k ⟨hidle, hdone, hstopped⟩
    refine hs.live k ⟨fun h => hidle ((hw k).idle h), fun h => hdone ((hw k).done h), ?_⟩
    cases h : (s.hubs.hubs k).stopped with
    | false => rfl
    | true => exact absurd ((hw k).stopped h) (by rw [hstopped]; decide)
  exclusive := hs.exclusive
  late := hs.late
  notRunning := hs.notRunning
  owned := hs.owned
  slots := hs.slots
  alone := hs.alone
  unrelated := hs.unrelated
  bounded := by
    rw [hmax]
    exact hs.bounded

theorem inv_dropPermit {s : Manager} (hs : Inv s) : Inv s.dropPermit :=
  inv_quieter hs rfl fun _ => Quieter.refl _

/-! ### Looking a camera up -/

theorem mem_of_handle? {s : Manager} {cameraId : String} {h : StreamHandle}
    (hh : s.handle? cameraId = some h) : h ∈ s.streams ∧ h.cameraId = cameraId :=
  ⟨List.mem_of_find?_eq_some hh, by simpa using List.find?_some hh⟩

theorem ne_of_handle?_none {s : Manager} {cameraId : String} (hh : s.handle? cameraId = none) :
    ∀ h ∈ s.streams, h.cameraId ≠ cameraId := by
  intro h hmem heq
  have := List.find?_eq_none.1 hh h hmem
  simp [heq] at this

/-- Two handles of one camera are one handle. -/
theorem handle_unique {s : Manager} (hs : Inv s) {h h' : StreamHandle} (hh : h ∈ s.streams)
    (hh' : h' ∈ s.streams) (heq : h.cameraId = h'.cameraId) : h = h' :=
  List.inj_on_of_nodup_map hs.nodup hh hh' heq

/-! ### A call moves on -/

/-- While a call of `create_stream` is active, no call of `stop_stream` is alone. -/
theorem not_alone {s : Manager} (hs : Inv s) {n : ℕ} {c : CameraConfig} {phase : CreatePhase}
    (hn : s.calls n = .creating c phase) (m : ℕ) (cameraId : String) :
    ¬ (s.calls m = .stopping cameraId true ∨ s.calls m = .stopped cameraId true) := by
  intro hm
  by_cases hmn : n = m
  · subst hmn
    rw [hn] at hm
    rcases hm with hm | hm <;> cases hm
  · have hactive := (hs.alone m cameraId hm).1 n hmn
    rw [hn] at hactive
    cases hactive

theorem lt_next {s : Manager} (hs : Inv s) {n : ℕ} (hn : s.calls n ≠ .unused) : n < s.next := by
  by_contra hle
  exact hn (hs.fresh n (Nat.le_of_not_lt hle)).1

/-- A call of `create_stream` that is under way has begun. -/
theorem lt_next_of_creating {s : Manager} (hs : Inv s) {n : ℕ} {c : CameraConfig}
    {phase : CreatePhase} (hn : s.calls n = .creating c phase) : n < s.next := by
  refine lt_next hs ?_
  rw [hn]
  exact Call.noConfusion

/-- It has not stored its handle. -/
theorem pipeline_ne_of_creating {s : Manager} (hs : Inv s) {n : ℕ} {c : CameraConfig}
    {phase : CreatePhase} (hn : s.calls n = .creating c phase) :
    ∀ h ∈ s.streams, h.pipeline ≠ n := by
  intro h hh heq
  obtain ⟨d, ended, hd, -⟩ := hs.handle h hh
  rw [heq, hn] at hd
  cases hd

/-- The calls of the later state overlap no more than those of the earlier one. -/
theorem overlap_of {s t : Manager} {k l : ℕ}
    (hrequest : ∀ m, (t.calls m).request = (s.calls m).request)
    (hlasts : ∀ m j, (t.calls m).lasts j = true → (s.calls m).lasts j = true)
    (h : t.Overlap k l) : s.Overlap k l := by
  obtain ⟨hne, hk, hl, hid⟩ := h
  rw [hrequest k, hrequest l] at hid
  exact ⟨hne, hlasts k l hk, hlasts l k hl, hid⟩

/-- Calls that are committed now were so before, and overlapped if they overlap. -/
theorem exclusive_of {s t : Manager} (hs : Inv s)
    (hcommitted : ∀ k, (t.calls k).committed = true → (s.calls k).committed = true)
    (hoverlap : ∀ k l, (t.calls k).committed = true → (t.calls l).committed = true →
      t.Overlap k l → s.Overlap k l) :
    ∀ k l, t.Overlap k l → (t.calls k).committed = true → (t.calls l).committed = false := by
  intro k l hkl hk
  by_contra hl
  rw [Bool.not_eq_false] at hl
  have hexclusive := hs.exclusive k l (hoverlap k l hk hl hkl) (hcommitted k hk)
  rw [hcommitted l hl] at hexclusive
  cases hexclusive

/-- No camera has been asked for that was not before. -/
theorem unrelated_of {s t : Manager} (hs : Inv s)
    (hrequest : ∀ k, ∀ c ∈ (t.calls k).request, c ∈ (s.calls k).request) :
    ∀ k l, ∀ c ∈ (t.calls k).request, ∀ d ∈ (t.calls l).request,
      c.cameraId ≠ d.cameraId ++ "/sub" :=
  fun k l c hc d hd => hs.unrelated k l c (hrequest k c hc) d (hrequest l d hd)

/-- A call that is committed and has not returned. -/
theorem creating_of_committed {call : Call} {c : CameraConfig} (hrequest : call.request = some c)
    (hsucceeded : call.succeeded = false) (hcommitted : call.committed = true) :
    ∃ phase, call = .creating c phase ∧ phase.committed = true := by
  cases call with
  | creating d phase =>
      cases hrequest
      exact ⟨phase, rfl, hcommitted⟩
  | created d ended => cases hsucceeded
  | unused | failed _ _ | stopping _ _ | stopped _ _ | notFound => cases hcommitted

/-- What is registered after a call has registered some of its mounts. -/
theorem registered_register {s : Manager} {n : ℕ} {c : CameraConfig} {paths : List String}
    {call : Call} (hpaths : ∀ path ∈ paths, path ∈ c.rtspMounts) (hcall : call.committed = true) :
    ∀ path k, ((s.setCall n call).register n paths).registered path = some k →
      s.registered path = some k ∨ k = n ∧ path ∈ c.rtspMounts ∧ call.committed = true := by
  intro path k hk
  simp only [Manager.register, Manager.setCall] at hk
  split at hk
  · rename_i hpath
    exact Or.inr ⟨(Option.some.inj hk).symm, hpaths path hpath, hcall⟩
  · exact Or.inl hk

/-- **A call of `create_stream` moves on, or fails.**  It may register its own mounts and slot once
it is committed, and it is committed only when no call that it overlaps is. -/
structure Advances (s t : Manager) (n : ℕ) (c : CameraConfig) (phase : CreatePhase)
    (call : Call) : Prop where
  before : s.calls n = .creating c phase
  calls : t.calls = Function.update s.calls n call := by rfl
  next : t.next = s.next := by rfl
  hubs : t.hubs = s.hubs := by rfl
  streams : t.streams = s.streams := by rfl
  request : call.request = some c := by rfl
  succeeded : call.succeeded = false := by rfl
  notRunning : call ≠ .creating c .running
  mono : phase.committed = true → call.committed = true
  registered : ∀ path k, t.registered path = some k →
    s.registered path = some k ∨ k = n ∧ path ∈ c.rtspMounts ∧ call.committed = true
  slots : ∀ cameraId k, t.segmentSlots cameraId = some k →
    s.segmentSlots cameraId = some k ∨ k = n ∧ call.committed = true
  commits : phase.committed = false → call.committed = true →
    ∀ k, s.Overlap n k → (s.calls k).committed = false
  checked : phase = .guarded → call.active = true → ∀ h ∈ s.streams, h.cameraId ≠ c.cameraId

namespace Advances

variable {s t : Manager} {n : ℕ} {c : CameraConfig} {phase : CreatePhase} {call : Call}

theorem self (h : Advances s t n c phase call) : t.calls n = call := by
  rw [h.calls, Function.update_self]

theorem other (h : Advances s t n c phase call) {k : ℕ} (hk : k ≠ n) : t.calls k = s.calls k := by
  rw [h.calls, Function.update_of_ne hk]

theorem request_eq (h : Advances s t n c phase call) (k : ℕ) :
    (t.calls k).request = (s.calls k).request := by
  by_cases hk : k = n
  · rw [hk, h.self, h.before, h.request]
    rfl
  · rw [h.other hk]

theorem overlap (h : Advances s t n c phase call) {k l : ℕ} : t.Overlap k l → s.Overlap k l := by
  refine overlap_of h.request_eq ?_
  intro m j hmj
  by_cases hm : m = n
  · rw [hm, h.before]
    rfl
  · rw [← h.other hm]
    exact hmj

/-- The call may have become committed; then no call that it overlaps is. -/
theorem committed_of_overlap (h : Advances s t n c phase call) (hs : Inv s) {k : ℕ}
    (hk : s.Overlap n k) (hcommitted : call.committed = true) : (s.calls k).committed = false := by
  by_cases hphase : phase.committed = true
  · refine hs.exclusive n k hk ?_
    rw [h.before]
    exact hphase
  · exact h.commits (by simpa using hphase) hcommitted k hk

theorem exclusive (h : Advances s t n c phase call) (hs : Inv s) (k l : ℕ) (hkl : t.Overlap k l)
    (hk : (t.calls k).committed = true) : (t.calls l).committed = false := by
  have hkl' := h.overlap hkl
  by_cases hkn : k = n
  · subst hkn
    rw [h.other fun heq => hkl.1 heq.symm]
    rw [h.self] at hk
    exact h.committed_of_overlap hs hkl' hk
  · rw [h.other hkn] at hk
    by_cases hln : l = n
    · subst hln
      rw [h.self]
      by_contra hcommitted
      have := h.committed_of_overlap hs ⟨hkl'.1.symm, hkl'.2.2.1, hkl'.2.1, hkl'.2.2.2.symm⟩
        (by simpa using hcommitted)
      rw [hk] at this
      cases this
    · rw [h.other hln]
      exact hs.exclusive k l hkl' hk

/-- The call that has just looked its camera up has found no handle. -/
theorem late (h : Advances s t n c phase call) (hs : Inv s) (m : ℕ) (d : CameraConfig)
    (q : CreatePhase) (hm : t.calls m = .creating d q) (hq : q ≠ .guarded) (handle : StreamHandle)
    (hmem : handle ∈ t.streams) (hid : handle.cameraId = d.cameraId) :
    (t.calls handle.pipeline).lasts m = true := by
  rw [h.streams] at hmem
  rw [h.other (pipeline_ne_of_creating hs h.before handle hmem)]
  by_cases hmn : m = n
  · subst hmn
    have hcall := h.request
    rw [h.self] at hm
    subst hm
    cases hcall
    by_cases hphase : phase = .guarded
    · exact absurd hid (h.checked hphase rfl handle hmem)
    · exact hs.late m c phase h.before hphase handle hmem hid
  · rw [h.other hmn] at hm
    exact hs.late m d q hm hq handle hmem hid

theorem owned (h : Advances s t n c phase call) (hs : Inv s) (path : String) (k : ℕ)
    (hk : t.registered path = some k) :
    (∃ d q, t.calls k = .creating d q ∧ q.committed = true ∧ path ∈ d.rtspMounts) ∨
      ∃ handle ∈ t.streams, handle.pipeline = k ∧ path ∈ handle.rtspMounts := by
  -- a mount of the call itself stays its own, since the call stays committed
  have hself : call.committed = true → path ∈ c.rtspMounts →
      ∃ d q, t.calls n = .creating d q ∧ q.committed = true ∧ path ∈ d.rtspMounts := by
    intro hcommitted hpath
    obtain ⟨q, hq, hqcommitted⟩ := creating_of_committed h.request h.succeeded hcommitted
    exact ⟨c, q, by rw [h.self, hq], hqcommitted, hpath⟩
  rw [h.streams]
  rcases h.registered path k hk with hk | ⟨rfl, hpath, hcommitted⟩
  · rcases hs.owned path k hk with ⟨d, q, hd, hq, hpath⟩ | hhandle
    · by_cases hkn : k = n
      · subst hkn
        rw [h.before] at hd
        cases hd
        exact Or.inl (hself (h.mono hq) hpath)
      · exact Or.inl ⟨d, q, by rw [h.other hkn]; exact hd, hq, hpath⟩
    · exact Or.inr hhandle
  · exact Or.inl (hself hcommitted hpath)

theorem slots_committed (h : Advances s t n c phase call) (hs : Inv s) (cameraId : String) (k : ℕ)
    (hk : t.segmentSlots cameraId = some k) : (t.calls k).committed = true := by
  rcases h.slots cameraId k hk with hk | ⟨rfl, hcommitted⟩
  · have hcommitted := hs.slots cameraId k hk
    by_cases hkn : k = n
    · subst hkn
      rw [h.self]
      rw [h.before] at hcommitted
      exact h.mono hcommitted
    · rw [h.other hkn]
      exact hcommitted
  · rw [h.self]
    exact hcommitted

end Advances

/-- **The invariant is kept when a call of `create_stream` moves on.** -/
theorem inv_advance {s t : Manager} {n : ℕ} {c : CameraConfig} {phase : CreatePhase} {call : Call}
    (hs : Inv s) (h : Advances s t n c phase call) : Inv t := by
  constructor
  case fresh =>
    intro k hk
    rw [h.next] at hk
    have hlt := lt_next_of_creating hs h.before
    rw [h.other (by omega), h.hubs]
    exact hs.fresh k hk
  case ran =>
    intro k hk
    rw [h.hubs] at hk
    have hkn : k ≠ n := by
      rintro rfl
      have := hs.ran k hk
      rw [h.before] at this
      cases this
    rw [h.other hkn]
    exact hs.ran k hk
  case handle =>
    intro handle hmem
    rw [h.streams] at hmem
    rw [h.other (pipeline_ne_of_creating hs h.before handle hmem)]
    exact hs.handle handle hmem
  case nodup =>
    rw [h.streams]
    exact hs.nodup
  case live =>
    intro k hk
    rw [h.streams]
    refine hs.live k ?_
    rw [Manager.Live, h.hubs] at hk
    exact hk
  case exclusive => exact h.exclusive hs
  case late => exact h.late hs
  case notRunning =>
    intro m d hm
    by_cases hmn : m = n
    · have hcall := h.request
      rw [hmn, h.self] at hm
      subst hm
      cases hcall
      exact h.notRunning rfl
    · rw [h.other hmn] at hm
      exact hs.notRunning m d hm
  case owned => exact h.owned hs
  case slots => exact h.slots_committed hs
  case alone =>
    intro m cameraId hm
    by_cases hmn : m = n
    · have hcall := h.request
      rw [hmn, h.self] at hm
      rcases hm with hm | hm <;> rw [hm] at hcall <;> cases hcall
    · rw [h.other hmn] at hm
      exact absurd hm (not_alone hs h.before m cameraId)
  case unrelated => exact unrelated_of hs fun k d hd => h.request_eq k ▸ hd
  case bounded =>
    rw [h.streams, h.hubs]
    exact hs.bounded

/-- **A call of `create_stream` fails.** -/
theorem inv_fails {s : Manager} {n : ℕ} {c : CameraConfig} {phase : CreatePhase} (hs : Inv s)
    (hn : s.calls n = .creating c phase) (hphase : phase.committed = false) :
    Inv (s.fails n c) := by
  have hadvances : Advances s (s.setCall n (.failed c s.next)) n c phase (.failed c s.next) :=
    { before := hn
      calls := rfl
      next := rfl
      hubs := rfl
      streams := rfl
      request := rfl
      succeeded := rfl
      notRunning := Call.noConfusion
      mono := fun h => absurd h (by rw [hphase]; decide)
      registered := fun _ _ => Or.inl
      slots := fun _ _ => Or.inl
      commits := fun _ h => by cases h
      checked := fun _ h => by cases h }
  exact inv_dropPermit (inv_advance hs hadvances)

/-! ### A call that is not about the map -/

/-- What the invariant asks of a call is the same for another, which may be disturbed. -/
structure Kept (call call' : Call) : Prop where
  request : call'.request = call.request
  lasts : ∀ k, call'.lasts k = call.lasts k
  committed : call'.committed = call.committed
  succeeded : call'.succeeded = call.succeeded
  creating : ∀ c phase, call' = .creating c phase ↔ call = .creating c phase
  created : ∀ c ended, call = .created c ended → call' = .created c ended

theorem Kept.refl (call : Call) : Kept call call :=
  ⟨rfl, fun _ => rfl, rfl, rfl, fun _ _ => Iff.rfl, fun _ _ => id⟩

theorem kept_disturbed (call : Call) : Kept call call.disturbed := by
  cases call <;> constructor <;> simp [Call.disturbed, Call.request, Call.lasts, Call.committed,
    Call.succeeded]

theorem committed_of_succeeded {call : Call} (h : call.succeeded = true) :
    call.committed = true := by
  cases call with
  | created c ended => rfl
  | _ => cases h

/-- **One call changes that has registered nothing**, and the others are kept: whether it begins, moves
on or returns, the invariant is kept as far as it is about the map. -/
theorem inv_of_calls {s : Manager} {n next : ℕ} (calls : ℕ → Call) (hs : Inv s)
    (hbefore : (s.calls n).committed = false) (hcommitted : (calls n).committed = false)
    (hguarded : ∀ c phase, calls n = .creating c phase → phase = .guarded)
    (hkept : ∀ k, k ≠ n → Kept (s.calls k) (calls k))
    (hfresh : ∀ k, next ≤ k → calls k = .unused ∧ (s.hubs.hubs k).phase = .idle)
    (halone : ∀ m cameraId, calls m = .stopping cameraId true ∨ calls m = .stopped cameraId true →
      (∀ k, k ≠ m → (calls k).active = false) ∧
        ∀ mount : Mount, s.registered (mount.path cameraId) = none)
    (hunrelated : ∀ k l, ∀ c ∈ (calls k).request, ∀ d ∈ (calls l).request,
      c.cameraId ≠ d.cameraId ++ "/sub") : Inv { s with next, calls } := by
  have hne : ∀ {k}, (s.calls k).committed = true → k ≠ n := by
    rintro k hk rfl
    rw [hbefore] at hk
    cases hk
  have hcommitted' : ∀ k, (calls k).committed = true → k ≠ n ∧ (s.calls k).committed = true := by
    intro k hk
    by_cases hkn : k = n
    · rw [hkn, hcommitted] at hk
      cases hk
    · rw [(hkept k hkn).committed] at hk
      exact ⟨hkn, hk⟩
  -- the call of a handle is not the one that changes
  have hhandle : ∀ h ∈ s.streams, h.pipeline ≠ n := by
    intro h hh
    obtain ⟨c, ended, hc, -⟩ := hs.handle h hh
    exact hne (by rw [hc]; rfl)
  constructor <;> dsimp only
  case fresh => exact hfresh
  case ran =>
    intro k hk
    have hran := hs.ran k hk
    rw [(hkept k (hne (committed_of_succeeded hran))).succeeded]
    exact hran
  case handle =>
    intro h hh
    obtain ⟨c, ended, hc, hhandle'⟩ := hs.handle h hh
    exact ⟨c, ended, (hkept _ (hhandle h hh)).created c ended hc, hhandle'⟩
  case nodup => exact hs.nodup
  case live => exact hs.live
  case exclusive =>
    refine exclusive_of hs (fun k hk => (hcommitted' k hk).2) fun k l hk hl hkl => ?_
    have hk := hkept k (hcommitted' k hk).1
    have hl := hkept l (hcommitted' l hl).1
    rw [Manager.Overlap] at hkl ⊢
    dsimp only at hkl
    rwa [hk.lasts, hl.lasts, hk.request, hl.request] at hkl
  case late =>
    intro m c phase hm hphase h hh hid
    rw [(hkept _ (hhandle h hh)).lasts]
    by_cases hmn : m = n
    · rw [hmn] at hm
      exact absurd (hguarded c phase hm) hphase
    · exact hs.late m c phase (((hkept m hmn).creating c phase).1 hm) hphase h hh hid
  case notRunning =>
    intro m c hm
    by_cases hmn : m = n
    · rw [hmn] at hm
      cases hguarded c _ hm
    · exact hs.notRunning m c (((hkept m hmn).creating c _).1 hm)
  case owned =>
    intro path k hk
    rcases hs.owned path k hk with ⟨c, phase, hc, hphase, hpath⟩ | hh
    · have hkn : k ≠ n := hne (by rw [hc]; exact hphase)
      exact Or.inl ⟨c, phase, ((hkept k hkn).creating c phase).2 hc, hphase, hpath⟩
    · exact Or.inr hh
  case slots =>
    intro cameraId k hk
    have hslot := hs.slots cameraId k hk
    rw [(hkept k (hne hslot)).committed]
    exact hslot
  case alone => exact halone
  case unrelated => exact hunrelated
  case bounded => exact hs.bounded

/-! ### A call begins -/

theorem not_alone_disturbed (call : Call) (cameraId : String) :
    ¬ (call.disturbed = .stopping cameraId true ∨ call.disturbed = .stopped cameraId true) := by
  cases call <;> simp [Call.disturbed]

theorem calls_begins_self (s : Manager) (call : Call) :
    (s.begins call).calls s.next = call := by
  simp only [Manager.begins, Function.update_self]

theorem calls_begins_of_ne {s : Manager} {k : ℕ} (call : Call) (hk : k ≠ s.next) :
    (s.begins call).calls k = (s.calls k).disturbed := by
  simp only [Manager.begins, Function.update_of_ne hk]

/-- **A call begins**, and nothing else happens. -/
theorem inv_begins {s : Manager} {call : Call} (hs : Inv s) (hcommitted : call.committed = false)
    (hguarded : ∀ c phase, call = .creating c phase → phase = .guarded)
    (halone : ∀ cameraId, ¬ (call = .stopping cameraId true ∨ call = .stopped cameraId true))
    (hrequest : ∀ c ∈ call.request, ∀ k < s.next, ∀ d ∈ (s.calls k).request, Unrelated c d) :
    Inv (s.begins call) := by
  have hself := calls_begins_self s call
  have hother : ∀ k, k ≠ s.next → (s.begins call).calls k = (s.calls k).disturbed :=
    fun k => calls_begins_of_ne call
  have hkept : ∀ k, k ≠ s.next → Kept (s.calls k) ((s.begins call).calls k) := by
    intro k hk
    rw [hother k hk]
    exact kept_disturbed _
  have hunused : s.calls s.next = .unused := (hs.fresh s.next (Nat.le_refl _)).1
  refine inv_of_calls (s.begins call).calls (n := s.next) hs (by rw [hunused]; rfl) (by rw [hself]; exact hcommitted)
    (by rw [hself]; exact hguarded) hkept ?_ ?_ ?_
  · intro k hk
    obtain ⟨hcall, hphase⟩ := hs.fresh k (by omega)
    rw [hother k (by omega), hcall]
    exact ⟨rfl, hphase⟩
  · intro m cameraId hm
    by_cases hmn : m = s.next
    · rw [hmn, hself] at hm
      exact absurd hm (halone cameraId)
    · rw [hother m hmn] at hm
      exact absurd hm (not_alone_disturbed _ cameraId)
  · have hlt : ∀ k, ∀ d ∈ (s.calls k).request, k < s.next := by
      intro k d hd
      refine lt_next hs fun h => ?_
      rw [h] at hd
      cases hd
    intro k l c hc d hd
    by_cases hk : k = s.next
    · rw [hk, hself] at hc
      by_cases hl : l = s.next
      · -- a call is not related to itself
        rw [hl, hself] at hd
        cases hc.symm.trans hd
        intro h
        have := congrArg String.length h
        simp at this
      · rw [(hkept l hl).request] at hd
        exact (hrequest c hc l (hlt l d hd) d hd).1
    · rw [(hkept k hk).request] at hc
      by_cases hl : l = s.next
      · rw [hl, hself] at hd
        exact (hrequest d hd k (hlt k c hc) c hc).2
      · rw [(hkept l hl).request] at hd
        exact hs.unrelated k l c hc d hd

/-! ### Stopping -/

/-- What `stop_stream` does with the handle that it has found. -/
def Manager.drops (s : Manager) (handle : StreamHandle) : Manager :=
  (((s.removeHandle handle.cameraId).setSlot handle.cameraId none).unregister
    handle.rtspMounts).signalStop handle

theorem mem_removeHandle {s : Manager} {cameraId : String} {h : StreamHandle} :
    h ∈ (s.removeHandle cameraId).streams ↔ h ∈ s.streams ∧ h.cameraId ≠ cameraId := by
  simp [Manager.removeHandle]

/-- **A handle is dropped**, with its mounts and the slot, and its hub told to stop. -/
theorem inv_drops {s : Manager} {handle : StreamHandle} (hs : Inv s)
    (hhandle : handle ∈ s.streams) : Inv (s.drops handle) := by
  have hstreams : (s.drops handle).streams = (s.removeHandle handle.cameraId).streams := rfl
  have hhubs : ∀ k, (s.drops handle).hubs.hubs k
      = Function.update s.hubs.hubs handle.pipeline
          { s.hubs.hubs handle.pipeline with stopped := true } k := fun _ => rfl
  have hquieter : ∀ k, Quieter (s.hubs.hubs k) ((s.drops handle).hubs.hubs k) :=
    quieter_update ⟨id, id, fun _ => rfl⟩
  constructor
  case fresh =>
    exact fun k hk => ⟨(hs.fresh k hk).1, (hquieter k).idle (hs.fresh k hk).2⟩
  case ran =>
    exact fun k hk => hs.ran k fun h => hk ((hquieter k).idle h)
  case handle =>
    intro h hh
    rw [hstreams, mem_removeHandle] at hh
    exact hs.handle h hh.1
  case nodup =>
    exact (List.filter_sublist.map _).nodup hs.nodup
  case live =>
    intro k hk
    have hne : k ≠ handle.pipeline := by
      rintro rfl
      have hstopped := hk.2.2
      rw [hhubs, Function.update_self] at hstopped
      cases hstopped
    have hlive : s.Live k := by
      rw [Manager.Live, hhubs, Function.update_of_ne hne] at hk
      exact hk
    obtain ⟨h, hh, rfl⟩ := hs.live k hlive
    refine ⟨h, ?_, rfl⟩
    -- only the handle of the stopped pipeline is taken out of the map
    rw [hstreams, mem_removeHandle]
    exact ⟨hh, fun heq => hne (by rw [handle_unique hs hh hhandle heq])⟩
  case exclusive => exact hs.exclusive
  case late =>
    intro n c phase hn hphase h hh
    rw [hstreams, mem_removeHandle] at hh
    exact hs.late n c phase hn hphase h hh.1
  case notRunning => exact hs.notRunning
  case owned =>
    intro path k hk
    have hk' : (if path ∈ handle.rtspMounts then none else s.registered path) = some k := hk
    split at hk'
    · cases hk'
    · rename_i hpath
      rcases hs.owned path k hk' with hcall | ⟨h, hh, hk, hmount⟩
      · exact Or.inl hcall
      · refine Or.inr ⟨h, ?_, hk, hmount⟩
        rw [hstreams, mem_removeHandle]
        refine ⟨hh, fun heq => hpath ?_⟩
        rw [← handle_unique hs hh hhandle heq]
        exact hmount
  case slots =>
    intro cameraId k hk
    rcases Machine.update_cases (p := (· = some k)) hk with ⟨-, hk⟩ | ⟨-, hk⟩
    · cases hk
    · exact hs.slots cameraId k hk
  case alone =>
    intro n cameraId hn
    obtain ⟨hactive, hmounts⟩ := hs.alone n cameraId hn
    refine ⟨hactive, fun mount => ?_⟩
    change (if mount.path cameraId ∈ handle.rtspMounts then none
      else s.registered (mount.path cameraId)) = none
    rw [hmounts mount]
    exact ite_self none
  case unrelated => exact hs.unrelated
  case bounded =>
    exact (List.length_filter_le _ _).trans hs.bounded

/-- A call of `stop_stream` moves on. -/
theorem inv_setStop {s : Manager} {n : ℕ} {cameraId : String} {alone : Bool} {call : Call}
    (hs : Inv s) (hn : s.calls n = .stopping cameraId alone)
    (hcall : ∃ b, call = .stopping cameraId b ∨ call = .stopped cameraId b)
    (halone : call = .stopping cameraId true ∨ call = .stopped cameraId true →
      (∀ k, k ≠ n → (s.calls k).active = false) ∧
        ∀ mount : Mount, s.registered (mount.path cameraId) = none) :
    Inv (s.setCall n call) := by
  have hself : (s.setCall n call).calls n = call := by
    simp only [Manager.setCall, Function.update_self]
  have hother : ∀ k, k ≠ n → (s.setCall n call).calls k = s.calls k := by
    intro k hk
    simp only [Manager.setCall, Function.update_of_ne hk]
  -- a call of `stop_stream` is none of the things that the invariant asks for
  have hcommitted : call.committed = false := by
    obtain ⟨b, rfl | rfl⟩ := hcall <;> rfl
  have hcreating : ∀ c phase, call ≠ .creating c phase := by
    obtain ⟨b, rfl | rfl⟩ := hcall <;> exact fun _ _ => Call.noConfusion
  have hid : ∀ id, call = .stopping id true ∨ call = .stopped id true → id = cameraId := by
    obtain ⟨b, rfl | rfl⟩ := hcall <;> rintro id (h | h) <;> cases h <;> rfl
  have hlt : n < s.next := lt_next hs (by rw [hn]; exact Call.noConfusion)
  refine inv_of_calls (s.setCall n call).calls (n := n) hs (by rw [hn]; rfl) (by rw [hself]; exact hcommitted)
    (fun c phase h => absurd (hself.symm.trans h) (hcreating c phase)) ?_ ?_ ?_ ?_
  · intro k hk
    rw [hother k hk]
    exact Kept.refl _
  · intro k hk
    rw [hother k (by omega)]
    exact hs.fresh k hk
  · intro m id hm
    by_cases hmn : m = n
    · subst hmn
      rw [hself] at hm
      obtain rfl := hid id hm
      obtain ⟨hactive, hmounts⟩ := halone hm
      refine ⟨fun k hk => ?_, hmounts⟩
      rw [hother k hk]
      exact hactive k hk
    · rw [hother m hmn] at hm
      -- call `n` is active, so no other call is alone
      have := (hs.alone m id hm).1 n fun h => hmn h.symm
      rw [hn] at this
      cases this
  · refine unrelated_of (t := s.setCall n call) hs fun k c hc => ?_
    by_cases hkn : k = n
    · rw [hkn, hself] at hc
      obtain ⟨b, rfl | rfl⟩ := hcall <;> cases hc
    · rwa [hother k hkn] at hc

/-! ### The paths of the mounts -/

/-- Two mounts with one path are of one camera, or of cameras that are related. -/
theorem eq_or_related_of_path {m m' : Mount} {a b : String} (h : m.path a = m'.path b) :
    a = b ∨ a = b ++ "/sub" ∨ b = a ++ "/sub" := by
  cases m with
  | main =>
      cases m' with
      | main => exact Or.inl (by simpa [Mount.path] using h)
      | sub => exact Or.inr (Or.inl (by simpa [Mount.path, String.append_assoc] using h))
  | sub =>
      cases m' with
      | main => exact Or.inr (Or.inr (by simpa [Mount.path, String.append_assoc] using h.symm))
      | sub => exact Or.inl (by simpa [Mount.path, String.append_assoc] using h)

/-- A mount of a camera has a path of the camera. -/
theorem path_of_mem_rtspMounts {c : CameraConfig} {path : String} (h : path ∈ c.rtspMounts) :
    ∃ mount : Mount, path = mount.path c.cameraId := by
  rcases List.mem_append.1 h with h | h
  · unfold CameraConfig.mainMount at h
    split at h
    · exact ⟨.main, List.mem_singleton.1 h⟩
    · cases h
  · unfold CameraConfig.subMount at h
    split at h
    · exact ⟨.sub, List.mem_singleton.1 h⟩
    · cases h

/-- A mount that is registered under a path of a camera is one of the camera's own. -/
theorem cameraId_of_path {s : Manager} (hs : Inv s) {k l : ℕ} {c d : CameraConfig}
    (hc : c ∈ (s.calls k).request) (hd : d ∈ (s.calls l).request) {m m' : Mount}
    (h : m.path c.cameraId = m'.path d.cameraId) : c.cameraId = d.cameraId := by
  rcases eq_or_related_of_path h with h | h | h
  · exact h
  · exact absurd h (hs.unrelated k l c hc d hd)
  · exact absurd h (hs.unrelated l k d hd c hc)

/-! ### Whole calls -/

theorem active_disturbed (call : Call) : call.disturbed.active = call.active := by
  cases call <;> rfl

/-- While no call is active, the mounts that are registered are those of the handles. -/
theorem registered_eq_none {s : Manager} {n : ℕ} {c : CameraConfig} (hs : Inv s)
    (hactive : ∀ k c phase, s.calls k ≠ .creating c phase) (hc : c ∈ (s.calls n).request)
    (huntracked : ∀ h ∈ s.streams, h.cameraId ≠ c.cameraId) (mount : Mount) :
    s.registered (mount.path c.cameraId) = none := by
  rw [Option.eq_none_iff_forall_ne_some]
  intro k hk
  rcases hs.owned _ k hk with ⟨d, phase, hd, -, -⟩ | ⟨h, hh, rfl, hpath⟩
  · exact hactive k d phase hd
  · obtain ⟨d, ended, hd, hhandle⟩ := hs.handle h hh
    rw [hhandle] at hpath
    obtain ⟨mount', hmount'⟩ := path_of_mem_rtspMounts hpath
    have hid := cameraId_of_path hs hc (by rw [hd]; rfl) hmount'
    refine huntracked h hh ?_
    rw [hid, hhandle]
    rfl

/-- **`stop_stream` until it waits.** -/
theorem inv_stops {s : Manager} {handle : StreamHandle} (hs : Inv s)
    (hhandle : handle ∈ s.streams) : Inv (s.stops handle) := by
  obtain ⟨c, ended, hc, hchandle⟩ := hs.handle handle hhandle
  have hid : handle.cameraId = c.cameraId := by
    rw [hchandle]
    rfl
  have hbegun : Inv (s.begins (.stopping handle.cameraId false)) := by
    refine inv_begins hs rfl ?_ ?_ ?_
    · intro _ _ h
      cases h
    · rintro _ (h | h) <;> cases h
    · intro _ h
      cases h
  have hdropped : Inv ((s.begins (.stopping handle.cameraId false)).drops handle) :=
    inv_drops hbegun hhandle
  cases hidle : s.idle with
  | false =>
      rw [Manager.stops, hidle]
      exact hdropped
  | true =>
      have hstops : s.stops handle = ((s.begins (.stopping handle.cameraId false)).drops
          handle).setCall s.next (.stopping handle.cameraId true) := by
        simp [Manager.stops, Manager.drops, Manager.begins, Manager.setCall, Manager.removeHandle,
          Manager.setSlot, Manager.unregister, Manager.signalStop, hidle]
      have hself : ((s.begins (.stopping handle.cameraId false)).drops handle).calls s.next
          = .stopping handle.cameraId false := calls_begins_self s _
      have hother : ∀ k, k ≠ s.next →
          ((s.begins (.stopping handle.cameraId false)).drops handle).calls k
            = (s.calls k).disturbed := fun k => calls_begins_of_ne _
      have hinactive : ∀ k, (s.calls k).active = false := by
        intro k
        by_cases hk : k < s.next
        · have := List.all_eq_true.1 hidle k (List.mem_range.2 hk)
          simpa using this
        · rw [(hs.fresh k (Nat.le_of_not_lt hk)).1]
          rfl
      have hpipeline : handle.pipeline ≠ s.next :=
        (lt_next hs (by rw [hc]; exact Call.noConfusion)).ne
      rw [hstops]
      refine inv_setStop hdropped hself ⟨true, Or.inl rfl⟩ fun _ => ⟨?_, ?_⟩
      · intro k hk
        rw [hother k hk, active_disturbed]
        exact hinactive k
      · -- no call is left that could have registered a mount of the camera
        rw [hid] at hdropped hself hother ⊢
        refine registered_eq_none hdropped ?_ (n := handle.pipeline) ?_ ?_
        · intro k d phase hk
          by_cases hkn : k = s.next
          · rw [hkn, hself] at hk
            cases hk
          · have := hinactive k
            rw [hother k hkn, (kept_disturbed _).creating] at hk
            rw [hk] at this
            cases this
        · rw [hother _ hpipeline, hc]
          rfl
        · intro h hh
          rw [← hid]
          exact (mem_removeHandle.1 hh).2

/-- A call that is about to store its handle finds no other handle there. -/
theorem untracked_of_committed {s : Manager} {n : ℕ} {c : CameraConfig} {phase : CreatePhase}
    (hs : Inv s) (hn : s.calls n = .creating c phase) (hphase : phase.committed = true) :
    ∀ h ∈ s.streams, h.cameraId ≠ c.cameraId := by
  intro h hh hid
  obtain ⟨d, ended, hd, hhandle⟩ := hs.handle h hh
  have hlasts := hs.late n c phase hn (by rintro rfl; cases hphase) h hh hid
  -- the call that stored the handle overlaps this one, and both are committed
  have hoverlap : s.Overlap n h.pipeline := by
    refine ⟨?_, ?_, hlasts, ?_⟩
    · intro heq
      rw [← heq, hn] at hd
      cases hd
    · rw [hn]
      rfl
    · rw [hn, hd]
      rw [hhandle] at hid
      exact congrArg some hid.symm
  have hcommitted := hs.exclusive n h.pipeline hoverlap (by rw [hn]; exact hphase)
  rw [hd] at hcommitted
  cases hcommitted

/-- A handle is put where none was. -/
theorem insertHandle_of_untracked {s : Manager} {handle : StreamHandle}
    (h : ∀ h ∈ s.streams, h.cameraId ≠ handle.cameraId) :
    s.insertHandle handle = { s with streams := handle :: s.streams } := by
  have hfilter : s.streams.filter (fun h => h.cameraId != handle.cameraId) = s.streams := by
    rw [List.filter_eq_self]
    intro h' hh'
    simpa using h h' hh'
  have hhandle? : s.handle? handle.cameraId = none := by
    rw [Manager.handle?, List.find?_eq_none]
    intro h' hh'
    simpa using h h' hh'
  simp only [Manager.insertHandle, hhandle?, Manager.removeHandle, hfilter]

/-- **A call of `create_stream` runs its hub, stores the handle and returns.** -/
theorem inv_finishes {s t : Manager} {n : ℕ} {c : CameraConfig} (hs : Inv s)
    (hn : s.calls n = .creating c .recorded) (hrun : s.runHub n = some t)
    (hroom : s.streams.length < s.hubs.resource.maxStreams) : Inv (t.finishes n c) := by
  have huntracked := untracked_of_committed hs hn rfl
  obtain ⟨w, hw, rfl⟩ := Option.map_eq_some_iff.1 hrun
  obtain ⟨-, rfl⟩ := goto_eq_some hw
  have hlt := lt_next_of_creating hs hn
  rw [Manager.finishes, insertHandle_of_untracked]
  swap
  · exact huntracked
  refine inv_dropPermit ?_
  have hself : Function.update s.calls n (.created c s.next) n = .created c s.next :=
    Function.update_self ..
  have hother : ∀ k, k ≠ n → Function.update s.calls n (.created c s.next) k = s.calls k :=
    fun k hk => Function.update_of_ne hk ..
  have hhub : ∀ k, k ≠ n →
      (s.hubs.move n s.hubs.resource .waiting).hubs k = s.hubs.hubs k :=
    fun k hk => Function.update_of_ne hk ..
  have hhandle := pipeline_ne_of_creating hs hn
  have hrequest : ∀ m, (Function.update s.calls n (.created c s.next) m).request
      = (s.calls m).request := proj_update Call.request (by rw [hn]; rfl)
  have hcommitted : ∀ m, (Function.update s.calls n (.created c s.next) m).committed
      = (s.calls m).committed := proj_update Call.committed (by rw [hn]; rfl)
  constructor <;> dsimp only [Manager.setCall]
  case fresh =>
    intro k hk
    have hkn : k ≠ n := by omega
    rw [hother k hkn, hhub k hkn]
    exact hs.fresh k hk
  case ran =>
    intro k hk
    by_cases hkn : k = n
    · rw [hkn, hself]
      rfl
    · rw [hother k hkn]
      rw [hhub k hkn] at hk
      exact hs.ran k hk
  case handle =>
    intro h hh
    rcases List.mem_cons.1 hh with rfl | hh
    · exact ⟨c, s.next, hself, rfl⟩
    · rw [hother _ (hhandle h hh)]
      exact hs.handle h hh
  case nodup =>
    rw [List.map_cons, List.nodup_cons]
    refine ⟨?_, hs.nodup⟩
    intro hmem
    obtain ⟨h, hh, hid⟩ := List.mem_map.1 hmem
    exact huntracked h hh hid
  case live =>
    intro k hk
    by_cases hkn : k = n
    · exact ⟨_, List.mem_cons_self, hkn.symm⟩
    · have hlive : s.Live k := by
        rw [Manager.Live] at hk
        dsimp only at hk
        rw [hhub k hkn] at hk
        exact hk
      obtain ⟨h, hh, hhk⟩ := hs.live k hlive
      exact ⟨h, List.mem_cons_of_mem _ hh, hhk⟩
  case exclusive =>
    refine exclusive_of hs (fun k hk => hcommitted k ▸ hk) fun k l _ _ => overlap_of hrequest ?_
    intro m j hmj
    by_cases hm : m = n
    · rw [hm, hn]
      rfl
    · rw [← hother m hm]
      exact hmj
  case late =>
    intro m d phase hm hphase h hh hid
    have hmn : m ≠ n := by
      rintro rfl
      rw [hself] at hm
      cases hm
    rw [hother m hmn] at hm
    rcases List.mem_cons.1 hh with rfl | hh
    · -- call `m` began before the call that returns here
      have hmlt := lt_next_of_creating hs hm
      simpa [CameraConfig.handle, Call.lasts] using hmlt
    · rw [hother _ (hhandle h hh)]
      exact hs.late m d phase hm hphase h hh hid
  case notRunning =>
    intro m d hm
    by_cases hmn : m = n
    · rw [hmn, hself] at hm
      cases hm
    · rw [hother m hmn] at hm
      exact hs.notRunning m d hm
  case owned =>
    intro path k hk
    rcases hs.owned path k hk with ⟨d, phase, hd, hphase, hpath⟩ | ⟨h, hh, hhk, hpath⟩
    · by_cases hkn : k = n
      · subst hkn
        rw [hn] at hd
        cases hd
        exact Or.inr ⟨_, List.mem_cons_self, rfl, hpath⟩
      · exact Or.inl ⟨d, phase, by rw [hother k hkn]; exact hd, hphase, hpath⟩
    · exact Or.inr ⟨h, List.mem_cons_of_mem _ hh, hhk, hpath⟩
  case slots =>
    intro cameraId k hk
    rw [hcommitted]
    exact hs.slots cameraId k hk
  case alone =>
    intro m cameraId hm
    by_cases hmn : m = n
    · rw [hmn, hself] at hm
      rcases hm with hm | hm <;> cases hm
    · rw [hother m hmn] at hm
      exact absurd hm (not_alone hs hn m cameraId)
  case unrelated =>
    refine unrelated_of (t := s.setCall n (.created c s.next)) hs fun k d hd => ?_
    rw [← hrequest k]
    exact hd
  case bounded =>
    exact hroom

/-! ### Every step -/

theorem inv_new (maxStreams : ℕ) (pos : 0 < maxStreams) : Inv (Manager.new maxStreams pos) := by
  constructor
  case fresh =>
    exact fun _ _ => ⟨rfl, rfl⟩
  case ran =>
    intro k hk
    exact absurd rfl hk
  case handle =>
    intro h hh
    cases hh
  case nodup =>
    exact List.nodup_nil
  case live =>
    intro k hk
    exact absurd rfl hk.1
  case exclusive =>
    intro k l hkl
    cases hkl.2.1
  case late =>
    intro n c phase hn
    cases hn
  case notRunning =>
    intro n c hn
    cases hn
  case owned =>
    intro path k hk
    cases hk
  case slots =>
    intro cameraId k hk
    cases hk
  case alone =>
    rintro n cameraId (hn | hn) <;> cases hn
  case unrelated =>
    intro k l c hc
    cases hc
  case bounded =>
    exact Nat.zero_le _

theorem maxStreams_tryAcquire {r r' : ResourceController} (h : r.tryAcquire = some r') :
    r'.maxStreams = r.maxStreams := by
  unfold ResourceController.tryAcquire at h
  split at h
  · cases h
    rfl
  · cases h

/-- `create_stream` is called. -/
theorem inv_createBegins {s t : Manager} {c : CameraConfig} (hs : Inv s)
    (hc : ∀ k < s.next, ∀ d ∈ (s.calls k).request, Unrelated c d)
    (h : managerStep s (.createBegins c) = some t) : Inv t := by
  have hrequest : ∀ d ∈ some c, ∀ k < s.next, ∀ d' ∈ (s.calls k).request, Unrelated d d' := by
    rintro d ⟨⟩
    exact hc
  simp only [managerStep] at h
  split at h
  · rename_i r hr
    cases h
    have hbegun : Inv (s.begins (.creating c .guarded)) := by
      refine inv_begins hs rfl ?_ ?_ hrequest
      · intro _ _ h
        cases h
        rfl
      · rintro _ (h | h) <;> cases h
    exact inv_quieter hbegun (maxStreams_tryAcquire hr) fun _ => Quieter.refl _
  · -- no permit is free, and the call fails at once
    cases h
    refine inv_begins hs rfl ?_ ?_ hrequest
    · intro _ _ h
      cases h
    · rintro _ (h | h) <;> cases h

/-- The camera is not in the map. -/
theorem inv_checked {s : Manager} {n : ℕ} {c : CameraConfig} (hs : Inv s)
    (hn : s.calls n = .creating c .guarded) (hnone : s.handle? c.cameraId = none) :
    Inv (s.setCall n (.creating c .checked)) := by
  have hadvances : Advances s (s.setCall n (.creating c .checked)) n c .guarded
      (.creating c .checked) :=
    { before := hn
      calls := rfl
      next := rfl
      hubs := rfl
      streams := rfl
      request := rfl
      succeeded := rfl
      notRunning := by simp
      mono := fun h => by cases h
      registered := fun _ _ => Or.inl
      slots := fun _ _ => Or.inl
      commits := fun _ h => by cases h
      checked := fun _ _ => ne_of_handle?_none hnone }
  exact inv_advance hs hadvances

/-- `live/{id}` is registered, by a call that overlaps none which has registered it. -/
theorem inv_mounted {s : Manager} {n : ℕ} {c : CameraConfig} (hs : Inv s)
    (hn : s.calls n = .creating c .checked)
    (hfirst : ∀ k < s.next, s.Overlap n k → (s.calls k).committed = false) :
    Inv ((s.setCall n (.creating c .mounted)).register n c.mainMount) := by
  have hbegun : ∀ k, s.Overlap n k → k < s.next := by
    intro k hk
    refine lt_next hs fun hunused => ?_
    have hlasts := hk.2.2.1
    rw [hunused] at hlasts
    cases hlasts
  have hadvances : Advances s ((s.setCall n (.creating c .mounted)).register n c.mainMount) n c
      .checked (.creating c .mounted) :=
    { before := hn
      calls := rfl
      next := rfl
      hubs := rfl
      streams := rfl
      request := rfl
      succeeded := rfl
      notRunning := by simp
      mono := fun _ => rfl
      registered := registered_register (fun _ => List.mem_append_left _) rfl
      slots := fun _ _ => Or.inl
      commits := fun _ _ k hk => hfirst k (hbegun k hk) hk
      checked := fun h => by cases h }
  exact inv_advance hs hadvances

/-- `live/{id}/sub` is registered. -/
theorem inv_submounted {s : Manager} {n : ℕ} {c : CameraConfig} (hs : Inv s)
    (hn : s.calls n = .creating c .mounted) :
    Inv ((s.setCall n (.creating c .submounted)).register n c.subMount) := by
  have hadvances : Advances s ((s.setCall n (.creating c .submounted)).register n c.subMount) n c
      .mounted (.creating c .submounted) :=
    { before := hn
      calls := rfl
      next := rfl
      hubs := rfl
      streams := rfl
      request := rfl
      succeeded := rfl
      notRunning := by simp
      mono := fun _ => rfl
      registered := registered_register (fun _ => List.mem_append_right _) rfl
      slots := fun _ _ => Or.inl
      commits := fun h => by cases h
      checked := fun h => by cases h }
  exact inv_advance hs hadvances

/-- The segment slot is registered, or recording is not enabled. -/
theorem inv_recorded {s : Manager} {n : ℕ} {c : CameraConfig} (hs : Inv s)
    (hn : s.calls n = .creating c .submounted) (enabled : Bool) :
    Inv (if enabled then (s.setCall n (.creating c .recorded)).setSlot c.cameraId (some n)
      else s.setCall n (.creating c .recorded)) := by
  have hadvances : ∀ t : Manager, t = s.setCall n (.creating c .recorded) ∨
      t = (s.setCall n (.creating c .recorded)).setSlot c.cameraId (some n) →
      Advances s t n c .submounted (.creating c .recorded) := by
    intro t ht
    have hslots : ∀ cameraId k, t.segmentSlots cameraId = some k →
        s.segmentSlots cameraId = some k ∨ k = n ∧ (Call.creating c .recorded).committed = true := by
      intro cameraId k hk
      rcases ht with rfl | rfl
      · exact Or.inl hk
      · rcases Machine.update_cases (p := (· = some k)) hk with ⟨-, hk⟩ | ⟨-, hk⟩
        · exact Or.inr ⟨(Option.some.inj hk).symm, rfl⟩
        · exact Or.inl hk
    exact
      { before := hn
        calls := by rcases ht with rfl | rfl <;> rfl
        next := by rcases ht with rfl | rfl <;> rfl
        hubs := by rcases ht with rfl | rfl <;> rfl
        streams := by rcases ht with rfl | rfl <;> rfl
        request := rfl
        succeeded := rfl
        notRunning := by simp
        mono := fun _ => rfl
        registered := by rcases ht with rfl | rfl <;> exact fun _ _ => Or.inl
        slots := hslots
        commits := fun h => by cases h
        checked := fun h => by cases h }
  cases enabled with
  | false => exact inv_advance hs (hadvances _ (Or.inl rfl))
  | true => exact inv_advance hs (hadvances _ (Or.inr rfl))

/-- `stop_stream` finds no stream. -/
theorem inv_notFound {s : Manager} (hs : Inv s) : Inv (s.begins .notFound) := by
  refine inv_begins hs rfl ?_ ?_ ?_
  · intro _ _ h
    cases h
  · rintro _ (h | h) <;> cases h
  · intro _ h
    cases h

/-- `stop_stream` returns. -/
theorem inv_stopReturns {s : Manager} {n : ℕ} {cameraId : String} {alone : Bool} (hs : Inv s)
    (hn : s.calls n = .stopping cameraId alone) :
    Inv (s.setCall n (.stopped cameraId alone)) := by
  refine inv_setStop hs hn ⟨alone, Or.inr rfl⟩ ?_
  intro halone
  refine hs.alone n cameraId (Or.inl ?_)
  rcases halone with halone | halone
  · cases halone
  · cases halone
    exact hn

/-- **Every step that does not disturb another call keeps the invariant.** -/
theorem inv_managerStep {s t : Manager} {e : ManagerEvent} (he : Undisturbed s e) (hs : Inv s)
    (h : managerStep s e = some t) : Inv t := by
  cases e with
  | createBegins c => exact inv_createBegins hs he h
  | createChecks n =>
      simp only [managerStep] at h
      split at h
      · rename_i c hn
        split at h
        · cases h
          exact inv_fails hs hn rfl
        · rename_i hnone
          cases h
          exact inv_checked hs hn hnone
      · cases h
  | createFails n =>
      simp only [managerStep] at h
      split at h
      · rename_i c hn
        cases h
        exact inv_fails hs hn rfl
      · cases h
  | createMounts n =>
      simp only [managerStep] at h
      split at h
      · rename_i c hn
        cases h
        exact inv_mounted hs hn he
      · cases h
  | createSubMounts n =>
      simp only [managerStep] at h
      split at h
      · rename_i c hn
        cases h
        exact inv_submounted hs hn
      · cases h
  | createRecords n enabled =>
      simp only [managerStep] at h
      split at h
      · rename_i c hn
        cases h
        exact inv_recorded hs hn enabled
      · cases h
  | createRuns n => exact he.elim
  | createStores n =>
      -- a call waits for the map with its hub running only after `createRuns`
      simp only [managerStep] at h
      split at h
      · rename_i c hn
        exact absurd hn (hs.notRunning n c)
      · cases h
  | createFinishes n =>
      simp only [managerStep] at h
      split at h
      · rename_i c hn
        obtain ⟨u, hu, rfl⟩ := Option.map_eq_some_iff.1 h
        exact inv_finishes hs hn hu he
      · cases h
  | stopBegins cameraId =>
      simp only [managerStep] at h
      split at h
      · rename_i handle hhandle
        cases h
        exact inv_stops hs (mem_of_handle? hhandle).1
      · cases h
        exact inv_notFound hs
  | stopReturns n =>
      simp only [managerStep] at h
      split at h
      · rename_i cameraId alone hn
        cases h
        exact inv_stopReturns hs hn
      · cases h
  | hub e =>
      simp only [managerStep] at h
      split at h
      · rename_i htasks
        obtain ⟨w, hw, rfl⟩ := Option.map_eq_some_iff.1 h
        obtain ⟨hmax, hquieter⟩ := quieter_tasks htasks hw
        exact inv_quieter hs hmax hquieter
      · cases h

/-! ### One pipeline per camera -/

/-- The invariant gives what is to hold. -/
theorem onePipeline_of_inv {s : Manager} (hs : Inv s) : OnePipeline s := by
  have htracked : ∀ k, s.Live k → ∃ handle ∈ s.streams, handle.pipeline = k ∧
      (s.calls k).request.map CameraConfig.cameraId = some handle.cameraId := by
    intro k hk
    obtain ⟨h, hh, rfl⟩ := hs.live k hk
    obtain ⟨c, ended, hc, hhandle⟩ := hs.handle h hh
    refine ⟨h, hh, rfl, ?_⟩
    rw [hc, hhandle]
    rfl
  refine ⟨?_, htracked, ?_, ?_, hs.bounded, ?_⟩
  · intro k l hk hl hid
    obtain ⟨h, hh, rfl, hhid⟩ := htracked k hk
    obtain ⟨h', hh', rfl, hhid'⟩ := htracked l hl
    rw [hhid, hhid'] at hid
    rw [handle_unique hs hh hh' (Option.some.inj hid)]
  · intro k l hkl hk
    by_contra hl
    have hcommitted : ∀ call : Call, call.succeeded = true → call.committed = true := by
      intro call hcall
      cases call with
      | created c ended => rfl
      | unused | creating _ _ | failed _ _ | stopping _ _ | stopped _ _ | notFound => cases hcall
    have := hs.exclusive k l hkl (hcommitted _ hk)
    rw [hcommitted _ (by simpa using hl)] at this
    cases this
  · intro n c ended hn
    refine ⟨?_, ?_, ?_⟩
    · intro path hpath
      rcases hs.owned path n hpath with ⟨d, phase, hd, -, -⟩ | ⟨h, hh, rfl, -⟩
      · rw [hn] at hd
        cases hd
      · obtain ⟨d, ended', hd, -⟩ := hs.handle h hh
        rw [hn] at hd
        cases hd
    · intro cameraId hslot
      have := hs.slots cameraId n hslot
      rw [hn] at this
      cases this
    · by_contra hphase
      have := hs.ran n hphase
      rw [hn] at this
      cases this
  · exact fun n cameraId hn => (hs.alone n cameraId (Or.inr hn)).2

/-- **One pipeline per camera**, in every state that an execution of calls which do not disturb
each other passes through. -/
theorem onePipeline_passes {maxStreams : ℕ} {pos : 0 < maxStreams} {es : List ManagerEvent}
    {s : Manager}
    (hes : ∀ u e, Occurs managerStep (Manager.new maxStreams pos) es u e → Undisturbed u e)
    (h : Passes managerStep (Manager.new maxStreams pos) es s) : OnePipeline s :=
  onePipeline_of_inv (passes_induction (fun u e _ hu => inv_managerStep (hes u e hu))
    (inv_new maxStreams pos) h)

/-- A camera with a substream. -/
def lobby : CameraConfig where
  cameraId := "lobby"
  rtspServer := true
  substream := true
  ssrc := 7
  subSsrc := 8

/-- A camera is started and stopped; while it is started, a second call for it finds it. -/
def startAndStop : List ManagerEvent := [
  .createBegins lobby, .createChecks 0, .createMounts 0, .createSubMounts 0, .createBegins lobby,
  .createRecords 0 true, .createFinishes 0, .createChecks 1, .stopBegins "lobby", .stopReturns 2]

theorem onePipeline_passes_lobby : ∃ s,
    exec managerStep (Manager.new 2 (by decide)) startAndStop = some s ∧ OnePipeline s ∧
      s.calls 1 = .failed lobby 2 ∧ s.calls 2 = .stopped "lobby" true ∧
      s.registered "live/lobby" = none := by
  obtain ⟨s, hs⟩ : ∃ s, exec managerStep (Manager.new 2 (by decide)) startAndStop = some s :=
    ⟨_, rfl⟩
  refine ⟨s, hs, onePipeline_passes ?_ ⟨_, List.prefix_refl _, hs⟩, ?_, ?_, ?_⟩
  · have hcheck : along managerStep (fun u e => decide (Undisturbed u e))
        (Manager.new 2 (by decide)) startAndStop = true := by decide
    exact fun u e hu => of_decide_eq_true (forall_occurs_of_along hcheck u e hu)
  · cases hs
    decide
  · cases hs
    decide
  · cases hs
    decide

/-- Two calls for one camera look it up before either of them has stored its handle. -/
def startTwice : List ManagerEvent := [
  .createBegins lobby, .createBegins lobby, .createChecks 0, .createChecks 1,
  .createMounts 0, .createSubMounts 0, .createRecords 0 false, .createFinishes 0,
  .createMounts 1, .createSubMounts 1, .createRecords 1 false, .createFinishes 1]

/-- Both return `Ok`. -/
theorem not_onePipeline_startTwice : ∃ s,
    exec managerStep (Manager.new 2 (by decide)) startTwice = some s ∧ ¬ OnePipeline s := by
  refine ⟨_, rfl, ?_⟩
  intro h
  have := h.exclusive 0 1 (by decide) (by decide)
  revert this
  decide

end StreamManager
