/-
**The cache of the parameter sets.**

For each stream `StreamManager::create_stream` in `crates/web/src/stream_manager.rs` spawns a task
that listens to the broadcast of the frames and keeps the SPS and the PPS it has heard last; a second
one does so for the substream.  `sps_pps` and `sps_pps_sub` return what is in the cache, for the init
segment of a new client.

The cache is one optional pair.  The first parameter set that is heard puts a pair there, whose other
half is the empty list.  The loop of the task ends when `recv` returns an error, and an error is also
what it returns after the receiver has lagged behind.

The model keeps, beside what the task has heard, what its receiver is given afterwards: a receiver
goes on at the oldest frame that the channel still has.

Main definitions:

* `StreamManager.Harvester`, `StreamManager.harvestStep` — the channel, its receiver and the task;
* `StreamManager.Streams`, `StreamManager.spsPps`, `StreamManager.spsPpsSub` — the caches of all
  cameras;
* `StreamManager.Truthful` — what the cache is to say.

Main results:

* `StreamManager.cache_eq_halves` — the cache is the pair of what was heard, with halves missing;
* `StreamManager.truthful_iff` — **the cache tells the truth exactly when both or none of the
  parameter sets were heard before the first gap, and the gap has hidden none**.
-/

import MibeeEye.StepMachine
import MibeeEye.H264Nal
import MibeeEye.RtmpOutput

set_option relaxedAutoImplicit false
set_option autoImplicit false

namespace StreamManager

open Machine Rtmp

/-! ### Parameter sets -/

/-- The two parameter sets. -/
inductive ParameterSet
  | sps
  | pps
  deriving DecidableEq, Repr

/-- `nal_unit_type` -/
def ParameterSet.nalType : ParameterSet → UInt8
  | sps => 7
  | pps => 8

/-- The parameter set that a frame is. -/
@[grind =] def ParameterSet.ofFrame (k : ParameterSet) : MediaFrame → Option (List UInt8)
  | .video _ data _ => if H264.nalType data = some k.nalType then some data else none
  | .audio _ _ => none

/-- The latest one, of frames that are listed with the latest first. -/
def ParameterSet.latest (k : ParameterSet) (frames : List MediaFrame) : Option (List UInt8) :=
  frames.findSome? k.ofFrame

/-! ### The task -/

/-- Capacity of the broadcast channels of the frames. -/
def frameCapacity : ℕ := 64

/-- `SpsPpsCache` -/
abbrev Cache := Option (List UInt8 × List UInt8)

/-- What the task does with a frame. -/
def store (cache : Cache) : MediaFrame → Cache
  | .audio _ _ => cache
  | .video _ data _ =>
      match H264.nalType data with
      -- an empty frame is skipped
      | none => cache
      | some 7 => some (data, (cache.getD ([], [])).2)
      | some 8 => some ((cache.getD ([], [])).1, data)
      | some _ => cache

/-- The frames sent since the task has subscribed, the frame that its receiver is at, and the cache.
What `recv` has given is recorded with the latest first: what the task has heard, and what it would
have heard if its loop had not ended. -/
structure Harvester where
  sent : List MediaFrame := []
  closed : Bool := false
  next : ℕ := 0
  running : Bool := true
  cache : Cache := none
  heard : List MediaFrame := []
  missed : List MediaFrame := []

/-- All that `recv` has given. -/
def Harvester.received (h : Harvester) : List MediaFrame := h.missed ++ h.heard

/-- What can happen. -/
inductive HarvestEvent
  /-- The source sends a frame. -/
  | send (frame : MediaFrame)
  /-- The source is gone. -/
  | close
  /-- `rx.recv()` returns. -/
  | recv

/-- `rx.recv()` gives a frame. -/
def Harvester.hear (h : Harvester) (frame : MediaFrame) : Harvester :=
  if h.running then
    { h with
      next := h.next + 1
      cache := store h.cache frame
      heard := frame :: h.heard }
  else { h with next := h.next + 1, missed := frame :: h.missed }

/-- One step. -/
def harvestStep (h : Harvester) : HarvestEvent → Option Harvester
  | .send frame => if h.closed then none else some { h with sent := h.sent ++ [frame] }
  | .close => some { h with closed := true }
  | .recv =>
      if h.next + frameCapacity < h.sent.length then
        -- `Lagged`: the receiver goes to the oldest frame, and the loop ends
        some { h with next := h.sent.length - frameCapacity, running := false }
      else
        match h.sent[h.next]? with
        | some frame => some (h.hear frame)
        -- `Closed`: the loop ends
        | none => if h.closed then some { h with running := false } else none

/-! ### The streams -/

/-- The caches of a stream. -/
structure StreamCaches where
  main : Harvester := {}
  sub : Option Harvester := none

/-- The streams by their cameras. -/
abbrev Streams := String → Option StreamCaches

/-- `StreamManager::sps_pps` -/
def spsPps (streams : Streams) (cameraId : String) : Cache :=
  (streams cameraId).bind fun handle => handle.main.cache

/-- `StreamManager::sps_pps_sub` -/
def spsPpsSub (streams : Streams) (cameraId : String) : Cache :=
  (streams cameraId).bind fun handle => handle.sub.bind Harvester.cache

/-- What can happen. -/
inductive StreamsEvent
  /-- A stream is put into the map, with or without a substream. -/
  | create (cameraId : String) (substream : Bool)
  /-- It is taken out of the map. -/
  | stop (cameraId : String)
  /-- Something happens to the main stream. -/
  | main (cameraId : String) (event : HarvestEvent)
  /-- Something happens to the substream. -/
  | sub (cameraId : String) (event : HarvestEvent)

/-- One step. -/
def streamsStep (streams : Streams) : StreamsEvent → Option Streams
  | .create cameraId substream =>
      some (Function.update streams cameraId
        (some { sub := if substream then some {} else none }))
  | .stop cameraId => some (Function.update streams cameraId none)
  | .main cameraId e =>
      (streams cameraId).bind fun handle => (harvestStep handle.main e).map fun main =>
        Function.update streams cameraId (some { handle with main })
  | .sub cameraId e =>
      (streams cameraId).bind fun handle => handle.sub.bind fun h =>
        (harvestStep h e).map fun h =>
          Function.update streams cameraId (some { handle with sub := some h })

/-! ### What is to hold -/

/-- **What the cache is to say**, when `recv` has given these frames. -/
structure Truthful (result : Cache) (received : List MediaFrame) : Prop where
  latest : ∀ s p, result = some (s, p) → ParameterSet.sps.latest received = some s ∧
    ParameterSet.pps.latest received = some p ∧ s ≠ [] ∧ p ≠ []
  missing : ∀ k : ParameterSet, k.latest received = none → result = none
  follows : ∀ s p, ParameterSet.sps.latest received = some s →
    ParameterSet.pps.latest received = some p → result = some (s, p)

/-- Both parameter sets were heard before the first gap, or none of them was. -/
def Harvester.Whole (h : Harvester) : Prop :=
  (ParameterSet.sps.latest h.heard).isSome = (ParameterSet.pps.latest h.heard).isSome

/-- What `recv` has given after the first gap has not made the cache stale: the latest parameter
sets are those that were heard, or a kind is missing as before. -/
def Harvester.Unhidden (h : Harvester) : Prop :=
  (∀ k : ParameterSet, k.latest h.received = k.latest h.heard) ∨
    (∀ k : ParameterSet, k.latest h.heard = none) ∧ ∃ k : ParameterSet, k.latest h.received = none

/-! ### What the cache holds -/

/-- The pair of the latest parameter sets, where the empty list stands for the one that is
missing. -/
def halves (frames : List MediaFrame) : Cache :=
  match ParameterSet.sps.latest frames, ParameterSet.pps.latest frames with
  | none, none => none
  | s, p => some (s.getD [], p.getD [])

theorem latest_cons (k : ParameterSet) (f : MediaFrame) (frames : List MediaFrame) :
    k.latest (f :: frames) = (k.ofFrame f).or (k.latest frames) := by
  rw [ParameterSet.latest, List.findSome?_cons]
  cases k.ofFrame f <;> rfl

/-- A parameter set is not empty. -/
theorem latest_ne_nil {k : ParameterSet} {frames : List MediaFrame} {data : List UInt8}
    (h : k.latest frames = some data) : data ≠ [] := by
  obtain ⟨f, -, hf⟩ := List.exists_of_findSome?_eq_some h
  cases f with
  | audio _ _ => cases hf
  | video keyframe bytes timestamp =>
      rw [ParameterSet.ofFrame] at hf
      split at hf
      · rename_i htype
        cases hf
        rintro rfl
        cases htype
      · cases hf

/-- A frame that is no parameter set changes nothing. -/
theorem halves_cons_of_none {f : MediaFrame} {frames : List MediaFrame}
    (h : ∀ k : ParameterSet, k.ofFrame f = none) : halves (f :: frames) = halves frames := by
  simp only [halves, latest_cons, h, Option.none_or]

/-- **Storing a frame keeps the halves up to date.** -/
theorem store_halves (f : MediaFrame) (frames : List MediaFrame) :
    store (halves frames) f = halves (f :: frames) := by
  cases f with
  | audio data timestamp =>
      rw [halves_cons_of_none fun k => rfl]
      rfl
  | video keyframe data timestamp =>
      rw [store]
      split
      · rename_i htype
        rw [halves_cons_of_none]
        intro k
        simp [ParameterSet.ofFrame, htype]
      · rename_i htype
        have hs : ParameterSet.sps.ofFrame (.video keyframe data timestamp) = some data := by
          simp [ParameterSet.ofFrame, htype, ParameterSet.nalType]
        have hp : ParameterSet.pps.ofFrame (.video keyframe data timestamp) = none := by
          simp [ParameterSet.ofFrame, htype, ParameterSet.nalType]
        simp only [halves, latest_cons, hs, hp, Option.none_or, Option.some_or]
        cases ParameterSet.sps.latest frames <;> cases ParameterSet.pps.latest frames <;> rfl
      · rename_i htype
        have hs : ParameterSet.sps.ofFrame (.video keyframe data timestamp) = none := by
          simp [ParameterSet.ofFrame, htype, ParameterSet.nalType]
        have hp : ParameterSet.pps.ofFrame (.video keyframe data timestamp) = some data := by
          simp [ParameterSet.ofFrame, htype, ParameterSet.nalType]
        simp only [halves, latest_cons, hs, hp, Option.none_or, Option.some_or]
        cases ParameterSet.sps.latest frames <;> cases ParameterSet.pps.latest frames <;> rfl
      · rename_i x h7 h8 htype
        rw [halves_cons_of_none]
        intro k
        rw [ParameterSet.ofFrame, htype, if_neg]
        intro hx
        cases k with
        | sps => exact h7 (Option.some.inj hx)
        | pps => exact h8 (Option.some.inj hx)

/-- The cache of a task is what it has heard. -/
theorem cache_harvestStep {h h' : Harvester} {e : HarvestEvent} (hcache : h.cache = halves h.heard)
    (hs : harvestStep h e = some h') : h'.cache = halves h'.heard := by
  cases e with
  | send frame =>
      rw [harvestStep] at hs
      split at hs
      · cases hs
      · cases hs
        exact hcache
  | close =>
      cases hs
      exact hcache
  | recv =>
      rw [harvestStep] at hs
      split at hs
      · cases hs
        exact hcache
      · split at hs
        · rename_i frame _
          cases hs
          rw [Harvester.hear]
          split
          · dsimp only
            rw [hcache, store_halves]
          · exact hcache
        · split at hs
          · cases hs
            exact hcache
          · cases hs

/-- The caches of a stream are what was heard. -/
structure StreamCaches.Heard (handle : StreamCaches) : Prop where
  main : handle.main.cache = halves handle.main.heard
  sub : ∀ h ∈ handle.sub, h.cache = halves h.heard

/-- **Every step keeps the caches what was heard.** -/
theorem heard_streamsStep {streams streams' : Streams} {e : StreamsEvent}
    (hinv : ∀ cameraId, ∀ handle ∈ streams cameraId, handle.Heard)
    (hs : streamsStep streams e = some streams') :
    ∀ cameraId, ∀ handle ∈ streams' cameraId, handle.Heard := by
  have hupdate : ∀ (cameraId : String) (new : Option StreamCaches),
      (∀ handle ∈ new, handle.Heard) → ∀ id, ∀ handle ∈ Function.update streams cameraId new id,
        handle.Heard := fun cameraId new hnew =>
    (Function.forall_update_iff streams fun _ new => ∀ handle ∈ new, handle.Heard).2
      ⟨hnew, fun id _ => hinv id⟩
  cases e with
  | create cameraId substream =>
      cases hs
      refine hupdate cameraId _ ?_
      rintro handle ⟨⟩
      refine ⟨rfl, ?_⟩
      intro h hh
      cases substream with
      | false => cases hh
      | true =>
          cases hh
          rfl
  | stop cameraId =>
      cases hs
      refine hupdate cameraId none ?_
      rintro handle ⟨⟩
  | main cameraId e =>
      obtain ⟨handle, hhandle, hs⟩ := Option.bind_eq_some_iff.1 hs
      obtain ⟨main, hmain, rfl⟩ := Option.map_eq_some_iff.1 hs
      have hold := hinv cameraId handle hhandle
      refine hupdate cameraId _ ?_
      rintro handle ⟨⟩
      exact ⟨cache_harvestStep hold.main hmain, hold.sub⟩
  | sub cameraId e =>
      obtain ⟨handle, hhandle, hs⟩ := Option.bind_eq_some_iff.1 hs
      obtain ⟨h, hh, hs⟩ := Option.bind_eq_some_iff.1 hs
      obtain ⟨h', hh', rfl⟩ := Option.map_eq_some_iff.1 hs
      have hold := hinv cameraId handle hhandle
      refine hupdate cameraId _ ?_
      rintro handle ⟨⟩
      refine ⟨hold.main, ?_⟩
      rintro h'' ⟨⟩
      exact cache_harvestStep (hold.sub h hh) hh'

/-- The caches are what was heard, in every run. -/
theorem cache_eq_halves {es : List StreamsEvent} {streams : Streams}
    (h : exec streamsStep (fun _ => none) es = some streams) {cameraId : String}
    {handle : StreamCaches} (hh : streams cameraId = some handle) : handle.Heard := by
  refine exec_invariant (P := fun _ => True)
    (I := fun streams : Streams => ∀ cameraId, ∀ handle ∈ streams cameraId, handle.Heard)
    (fun _ _ _ _ hinv hs => heard_streamsStep hinv hs) (fun _ _ => trivial) ?_ h cameraId handle hh
  intro cameraId handle hmem
  cases hmem

/-! ### The truth -/

/-- A cache that is empty tells the truth as long as a parameter set is missing. -/
theorem truthful_none_iff (received : List MediaFrame) :
    Truthful none received ↔ ∃ k : ParameterSet, k.latest received = none := by
  constructor
  · intro h
    cases hsps : ParameterSet.sps.latest received with
    | none => exact ⟨.sps, hsps⟩
    | some s =>
        cases hpps : ParameterSet.pps.latest received with
        | none => exact ⟨.pps, hpps⟩
        | some p => cases h.follows s p hsps hpps
  · rintro ⟨k, hk⟩
    refine ⟨?_, fun _ _ => rfl, ?_⟩
    · intro s p h
      cases h
    · intro s p hsps hpps
      cases k with
      | sps => cases hk.symm.trans hsps
      | pps => cases hk.symm.trans hpps

/-- A pair tells the truth when its halves are the latest parameter sets. -/
theorem truthful_some_iff (s p : List UInt8) (received : List MediaFrame) :
    Truthful (some (s, p)) received ↔
      ParameterSet.sps.latest received = some s ∧ ParameterSet.pps.latest received = some p := by
  constructor
  · intro h
    obtain ⟨hsps, hpps, -, -⟩ := h.latest s p rfl
    exact ⟨hsps, hpps⟩
  · rintro ⟨hsps, hpps⟩
    refine ⟨?_, ?_, ?_⟩
    · intro s' p' h
      cases h
      exact ⟨hsps, hpps, latest_ne_nil hsps, latest_ne_nil hpps⟩
    · intro k hk
      cases k with
      | sps => cases hk.symm.trans hsps
      | pps => cases hk.symm.trans hpps
    · intro s' p' hsps' hpps'
      rw [hsps] at hsps'
      rw [hpps] at hpps'
      cases hsps'
      cases hpps'
      rfl

/-- **What the cache says of one stream.** -/
theorem truthful_halves_iff (h : Harvester) :
    Truthful (halves h.heard) h.received ↔ h.Whole ∧ h.Unhidden := by
  unfold Harvester.Whole Harvester.Unhidden
  cases hsps : ParameterSet.sps.latest h.heard with
  | none =>
      cases hpps : ParameterSet.pps.latest h.heard with
      | none =>
          have hheard : ∀ k : ParameterSet, k.latest h.heard = none := by
            intro k
            cases k with
            | sps => exact hsps
            | pps => exact hpps
          rw [halves, hsps, hpps, truthful_none_iff]
          constructor
          · exact fun hk => ⟨rfl, .inr ⟨hheard, hk⟩⟩
          · rintro ⟨-, hsame | ⟨-, hk⟩⟩
            · exact ⟨.sps, (hsame .sps).trans hsps⟩
            · exact hk
      | some p =>
          -- only a PPS was heard: the half that is missing is empty
          rw [halves, hsps, hpps]
          dsimp only [Option.getD]
          rw [truthful_some_iff]
          constructor
          · intro hpair
            exact absurd rfl (latest_ne_nil hpair.1)
          · rintro ⟨hwhole, -⟩
            cases hwhole
  | some s =>
      cases hpps : ParameterSet.pps.latest h.heard with
      | none =>
          rw [halves, hsps, hpps]
          dsimp only [Option.getD]
          rw [truthful_some_iff]
          constructor
          · intro hpair
            exact absurd rfl (latest_ne_nil hpair.2)
          · rintro ⟨hwhole, -⟩
            cases hwhole
      | some p =>
          rw [halves, hsps, hpps]
          dsimp only [Option.getD]
          rw [truthful_some_iff]
          constructor
          · rintro ⟨hs, hp⟩
            refine ⟨rfl, .inl fun k => ?_⟩
            cases k with
            | sps => rw [hs, hsps]
            | pps => rw [hp, hpps]
          · rintro ⟨-, hsame | ⟨hnone, -⟩⟩
            · exact ⟨(hsame .sps).trans hsps, (hsame .pps).trans hpps⟩
            · cases (hnone .sps).symm.trans hsps

/-- **The cache tells the truth exactly when both or none of the parameter sets were heard before the
first gap, and none has been hidden by it**, for the main stream and for the substream of every
camera, at every moment of every run. -/
theorem truthful_iff {es : List StreamsEvent} {streams : Streams}
    (h : exec streamsStep (fun _ => none) es = some streams) {cameraId : String}
    {handle : StreamCaches} (hh : streams cameraId = some handle) :
    (Truthful (spsPps streams cameraId) handle.main.received ↔
      handle.main.Whole ∧ handle.main.Unhidden) ∧
    ∀ sub, handle.sub = some sub →
      (Truthful (spsPpsSub streams cameraId) sub.received ↔ sub.Whole ∧ sub.Unhidden) := by
  have hheard := cache_eq_halves h hh
  constructor
  · rw [spsPps, hh, Option.bind_some, hheard.main]
    exact truthful_halves_iff handle.main
  · intro sub hsub
    rw [spsPpsSub, hh, Option.bind_some, hsub, Option.bind_some, hheard.sub sub hsub]
    exact truthful_halves_iff sub

/-- A frame with one NAL unit. -/
def nalFrame (data : List UInt8) : MediaFrame := .video true data 0

/-- A stream with a substream hears both parameter sets. -/
def hearsBoth : List StreamsEvent := [
  .create "lobby" true,
  .main "lobby" (.send (nalFrame [0x67, 0x42])), .main "lobby" (.send (nalFrame [0x68, 0xCE])),
  .main "lobby" .recv, .main "lobby" .recv]

theorem truthful_iff_hearsBoth : ∃ streams handle,
    exec streamsStep (fun _ => none) hearsBoth = some streams ∧ streams "lobby" = some handle ∧
      Truthful (spsPps streams "lobby") handle.main.received ∧
      spsPps streams "lobby" = some ([0x67, 0x42], [0x68, 0xCE]) := by
  obtain ⟨streams, hstreams⟩ : ∃ streams,
    exec streamsStep (fun _ => none) hearsBoth = some streams := ⟨_, rfl⟩
  obtain ⟨handle, hhandle⟩ : ∃ handle, streams "lobby" = some handle := by
    cases hstreams
    exact ⟨_, rfl⟩
  refine ⟨streams, handle, hstreams, hhandle, (truthful_iff hstreams hhandle).1.2 ?_, ?_⟩
  · cases hstreams
    cases hhandle
    exact ⟨rfl, .inl fun _ => rfl⟩
  · cases hstreams
    rfl

/-- After the SPS alone the cache has a pair, whose PPS is empty. -/
theorem not_truthful_sps : ∃ streams handle,
    exec streamsStep (fun _ => none) [.create "lobby" false,
      .main "lobby" (.send (nalFrame [0x67, 0x42])), .main "lobby" .recv] = some streams ∧
    streams "lobby" = some handle ∧ spsPps streams "lobby" = some ([0x67, 0x42], []) ∧
    ¬ Truthful (spsPps streams "lobby") handle.main.received := by
  refine ⟨_, _, rfl, rfl, rfl, ?_⟩
  intro h
  obtain ⟨-, -, -, hp⟩ := h.latest [0x67, 0x42] [] rfl
  exact hp rfl

end StreamManager
