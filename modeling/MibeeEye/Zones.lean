/-
**The zones of the cameras.**

`crates/web/src/zones.rs` keeps the zones of all cameras in a map in memory and, as one settings row,
in the database.  `put_zones` replaces the zones of one camera: it checks them, copies the map,
changes the copy, writes the copy to the database, and puts the copy in the place of the map.  The
write is awaited, and no lock is held meanwhile, so the requests are interleaved: the model is a step
machine over all requests, with a step for each part of a request between its awaits.

A request that has copied the map puts back the zones of all other cameras as they were then.

Main definitions:

* `Zones.Zone`, `Zones.validate` — zones, and which lists are accepted;
* `Zones.Put`, `Zones.Server`, `Zones.zoneStep` — the requests, and what they share;
* `Zones.NoLostUpdate` — what is to hold when all requests have returned;
* `Zones.InOrder` — the steps that respect other requests.

Main results:

* `Zones.inv_zoneStep` — the invariant is kept by every such step;
* `Zones.noLostUpdate_passes` — **no update is lost in a run of such steps**.
-/

import MibeeEye.StepMachine
import MibeeEye.Text

set_option relaxedAutoImplicit false
set_option autoImplicit false

namespace Zones

open Machine

/-! ### Zones -/

/-- `ZoneKind` -/
inductive ZoneKind
  | intrusion
  | lineCross
  deriving DecidableEq, Repr

/-- `Zone`, with coordinates in `F`. -/
structure Zone (F : Type) where
  name : String
  kind : ZoneKind
  points : List (F × F)
  dwellSecs : UInt32
  deriving DecidableEq, Repr

variable {F : Type}

/-- The checks of `put_zones`; `names` are those of the zones before. -/
def validate (names : List (List Char)) : List (Zone F) → Except String Unit
  | [] => .ok ()
  | z :: zs =>
      let name := Text.trim z.name.toList
      if name = [] then .error "zone name must not be empty"
      else if name ∈ names then .error "duplicate zone name"
      else
        match z.kind with
        | .intrusion =>
            if z.points.length < 3 then .error "intrusion zone needs >= 3 points"
            else validate (name :: names) zs
        | .lineCross =>
            if z.points.length ≠ 2 then .error "line zone needs exactly 2 points"
            else validate (name :: names) zs

/-- The map of the zones. -/
abbrev ZoneMap (F : Type) := String → Option (List (Zone F))

/-- What a camera has in the map: an empty list is removed. -/
def entry (list : List (Zone F)) : Option (List (Zone F)) := if list.isEmpty then none else some list

/-! ### Requests -/

/-- A request.  The requests are numbered in the order in which they begin; one that has returned
keeps the number of the first request that began after it returned. -/
inductive Put (F : Type)
  | unused
  /-- 400 -/
  | rejected (error : String)
  /-- It waits for the database, with the copy of the map. -/
  | persisting (cameraId : String) (list : List (Zone F)) (map : ZoneMap F)
  /-- The database has the copy, and the request has not gone on. -/
  | written (cameraId : String) (list : List (Zone F)) (map : ZoneMap F)
  /-- 500 -/
  | failed (cameraId : String)
  /-- 200 -/
  | returned (cameraId : String) (list : List (Zone F)) (ended : ℕ)

/-- The camera, the zones and the copy of a request that has begun and has not returned. -/
def Put.copy : Put F → Option (String × List (Zone F) × ZoneMap F)
  | persisting cameraId list map | written cameraId list map => some (cameraId, list, map)
  | unused | rejected _ | failed _ | returned _ _ _ => none

/-- The map in memory, the settings row, and the requests.  The requests that have written the row and
have not returned are listed in the order in which they wrote it. -/
structure Server (F : Type) where
  memory : ZoneMap F
  setting : ZoneMap F
  next : ℕ := 0
  calls : ℕ → Put F := fun _ => .unused
  queue : List ℕ := []

/-- After `load_from_db`. -/
def Server.loaded (map : ZoneMap F) : Server F := { memory := map, setting := map }

/-- No request is under way. -/
def Server.Quiet (s : Server F) : Prop := ∀ k, (s.calls k).copy = none

/-- What can happen. -/
inductive ZoneEvent (F : Type)
  /-- A request is made. -/
  | put (cameraId : String) (list : List (Zone F))
  /-- The database writes the row for request `n`. -/
  | persists (n : ℕ)
  /-- The database does not. -/
  | persistFails (n : ℕ)
  /-- Request `n` goes on and returns. -/
  | returns (n : ℕ)

/-- One step. -/
@[grind =] def zoneStep (s : Server F) : ZoneEvent F → Option (Server F)
  | .put cameraId list =>
      let call := match validate [] list with
        | .error e => .rejected e
        | .ok () => .persisting cameraId list (Function.update s.memory cameraId (entry list))
      some { s with next := s.next + 1, calls := Function.update s.calls s.next call }
  | .persists n =>
      match s.calls n with
      | .persisting cameraId list map => some { s with
          setting := map
          calls := Function.update s.calls n (.written cameraId list map)
          queue := s.queue ++ [n] }
      | _ => none
  | .persistFails n =>
      match s.calls n with
      | .persisting cameraId _ _ =>
          some { s with calls := Function.update s.calls n (.failed cameraId) }
      | _ => none
  | .returns n =>
      match s.calls n with
      | .written cameraId list map => some { s with
          memory := map
          calls := Function.update s.calls n (.returned cameraId list s.next)
          queue := s.queue.erase n }
      | _ => none

/-! ### What is to hold -/

/-- **No update is lost**: memory and database agree; a camera has the zones of a successful request
for it that no other one follows; and a camera without one has the zones it had. -/
structure NoLostUpdate (initial : ZoneMap F) (s : Server F) : Prop where
  equal : s.memory = s.setting
  last : ∀ cameraId k list ended, s.calls k = .returned cameraId list ended →
    ∃ k' list' ended', s.calls k' = .returned cameraId list' ended' ∧
      s.memory cameraId = entry list' ∧
      ∀ l list'' ended'', s.calls l = .returned cameraId list'' ended'' → l < ended'
  untouched : ∀ cameraId, (∀ k list ended, s.calls k ≠ .returned cameraId list ended) →
    s.memory cameraId = initial cameraId

/-- **The steps that respect other requests**: a request for another camera does not begin while one
is under way, and the requests return in the order in which they wrote the row. -/
def InOrder (s : Server F) : ZoneEvent F → Prop
  | .put cameraId list => validate [] list = .ok () →
      ∀ k < s.next, ∀ copy ∈ (s.calls k).copy, copy.1 = cameraId
  | .returns n => s.queue.head? = some n
  | .persists _ | .persistFails _ => True

instance (s : Server F) : DecidablePred (InOrder s)
  | .put cameraId list => inferInstanceAs (Decidable (validate [] list = .ok () →
      ∀ k < s.next, ∀ copy ∈ (s.calls k).copy, copy.1 = cameraId))
  | .returns n => inferInstanceAs (Decidable (s.queue.head? = some n))
  | .persists _ | .persistFails _ => inferInstanceAs (Decidable True)

/-! ### The invariant -/

/-- What the steps keep. -/
structure Inv (initial : ZoneMap F) (s : Server F) : Prop where
  fresh : ∀ k, s.next ≤ k → s.calls k = .unused
  queue_nodup : s.queue.Nodup
  queued : ∀ n ∈ s.queue, ∃ cameraId list map, s.calls n = .written cameraId list map
  /-- The requests under way are for one camera. -/
  sameCamera : ∀ k l, ∀ a ∈ (s.calls k).copy, ∀ b ∈ (s.calls l).copy, a.1 = b.1
  /-- Their copies differ from the map in this camera only. -/
  copied : ∀ k, ∀ a ∈ (s.calls k).copy, a.2.2 a.1 = entry a.2.1 ∧
    ∀ x, x ≠ a.1 → a.2.2 x = s.memory x
  /-- The row is the copy that was written last. -/
  setting : (s.queue = [] → s.setting = s.memory) ∧
    ∀ n, s.queue.getLast? = some n → ∀ a ∈ (s.calls n).copy, s.setting = a.2.2
  last : ∀ cameraId k list ended, s.calls k = .returned cameraId list ended →
    ∃ k' list' ended', s.calls k' = .returned cameraId list' ended' ∧
      s.memory cameraId = entry list' ∧
      ∀ l list'' ended'', s.calls l = .returned cameraId list'' ended'' → l < ended'
  untouched : ∀ cameraId, (∀ k list ended, s.calls k ≠ .returned cameraId list ended) →
    s.memory cameraId = initial cameraId

theorem inv_loaded (initial : ZoneMap F) : Inv initial (Server.loaded initial) := by
  refine ⟨fun _ _ => rfl, List.nodup_nil, ?_, ?_, ?_, ⟨fun _ => rfl, ?_⟩, ?_, fun _ _ => rfl⟩
  · intro n hn
    cases hn
  · intro k l a ha
    cases ha
  · intro k a ha
    cases ha
  · intro n hn
    cases hn
  · intro cameraId k list ended h
    cases h

/-- A request that is under way has begun. -/
theorem lt_next_of_copy {initial : ZoneMap F} {s : Server F} (hs : Inv initial s) {k : ℕ}
    {a : String × List (Zone F) × ZoneMap F} (ha : a ∈ (s.calls k).copy) : k < s.next := by
  by_contra hk
  rw [hs.fresh k (Nat.le_of_not_lt hk)] at ha
  cases ha

/-- A request that has returned has begun. -/
theorem lt_next_of_returned {initial : ZoneMap F} {s : Server F} (hs : Inv initial s) {k : ℕ}
    {cameraId : String} {list : List (Zone F)} {ended : ℕ}
    (h : s.calls k = .returned cameraId list ended) : k < s.next := by
  by_contra hk
  rw [hs.fresh k (Nat.le_of_not_lt hk)] at h
  cases h

/-- A request that has not written the row is not in the queue. -/
theorem ne_of_mem_queue {initial : ZoneMap F} {s : Server F} (hs : Inv initial s) {n : ℕ}
    (hn : ∀ cameraId list map, s.calls n ≠ .written cameraId list map) :
    ∀ k ∈ s.queue, k ≠ n := by
  rintro k hk rfl
  obtain ⟨cameraId, list, map, hwritten⟩ := hs.queued k hk
  exact hn cameraId list map hwritten

section Calls

variable {s : Server F} {n : ℕ} {call : Put F}

/-- A copy of the requests after one of them has changed. -/
theorem copy_update {k : ℕ} {a : String × List (Zone F) × ZoneMap F}
    (h : a ∈ (Function.update s.calls n call k).copy) :
    (k = n ∧ a ∈ call.copy) ∨ (k ≠ n ∧ a ∈ (s.calls k).copy) :=
  update_cases (p := fun c => a ∈ Put.copy c) h

/-- The requests that have returned for a camera, when one changes that has not and does not. -/
theorem returned_update {cameraId : String} (hn : ∀ l e, s.calls n ≠ .returned cameraId l e)
    (hcall : ∀ l e, call ≠ .returned cameraId l e) (k : ℕ) (list : List (Zone F)) (ended : ℕ) :
    Function.update s.calls n call k = .returned cameraId list ended ↔
      s.calls k = .returned cameraId list ended := by
  by_cases hk : k = n
  · subst hk
    rw [Function.update_self]
    exact ⟨fun h => absurd h (hcall _ _), fun h => absurd h (hn _ _)⟩
  · rw [Function.update_of_ne hk]

end Calls

/-- **A request changes that does not return**, and the row with it if it writes it. -/
theorem inv_of_update {initial : ZoneMap F} {s t : Server F} {n : ℕ} {call : Put F}
    (hs : Inv initial s) (hmemory : t.memory = s.memory)
    (hcalls : t.calls = Function.update s.calls n call)
    (hn : ∀ c l e, s.calls n ≠ .returned c l e) (hcall : ∀ c l e, call ≠ .returned c l e)
    (hfresh : ∀ k, t.next ≤ k → t.calls k = .unused) (hnodup : t.queue.Nodup)
    (hqueued : ∀ n ∈ t.queue, ∃ cameraId list map, t.calls n = .written cameraId list map)
    (hcopied : ∀ a ∈ call.copy, a.2.2 a.1 = entry a.2.1 ∧ ∀ x, x ≠ a.1 → a.2.2 x = s.memory x)
    (hsame : ∀ a ∈ call.copy, ∀ k, ∀ b ∈ (s.calls k).copy, a.1 = b.1)
    (hsetting : (t.queue = [] → t.setting = t.memory) ∧
      ∀ n, t.queue.getLast? = some n → ∀ a ∈ (t.calls n).copy, t.setting = a.2.2) :
    Inv initial t := by
  have hreturned : ∀ (k : ℕ) (cameraId : String) (list : List (Zone F)) (ended : ℕ),
      t.calls k = .returned cameraId list ended ↔ s.calls k = .returned cameraId list ended := by
    intro k cameraId list ended
    rw [hcalls]
    exact returned_update (hn cameraId) (hcall cameraId) k list ended
  have hcopy : ∀ k, ∀ a ∈ (t.calls k).copy,
      (k = n ∧ a ∈ call.copy) ∨ (k ≠ n ∧ a ∈ (s.calls k).copy) := by
    intro k a ha
    rw [hcalls] at ha
    exact copy_update ha
  refine ⟨hfresh, hnodup, hqueued, ?_, ?_, hsetting, ?_, ?_⟩
  · intro k l a ha b hb
    rcases hcopy k a ha with ⟨-, ha⟩ | ⟨-, ha⟩
    · rcases hcopy l b hb with ⟨-, hb⟩ | ⟨-, hb⟩
      · rw [Option.mem_unique ha hb]
      · exact hsame a ha l b hb
    · rcases hcopy l b hb with ⟨-, hb⟩ | ⟨-, hb⟩
      · exact (hsame b hb k a ha).symm
      · exact hs.sameCamera k l a ha b hb
  · intro k a ha
    rw [hmemory]
    rcases hcopy k a ha with ⟨-, ha⟩ | ⟨-, ha⟩
    · exact hcopied a ha
    · exact hs.copied k a ha
  · intro cameraId k list ended h
    simp only [hreturned] at h ⊢
    rw [hmemory]
    exact hs.last cameraId k list ended h
  · intro cameraId h
    simp only [ne_eq, hreturned] at h
    rw [hmemory]
    exact hs.untouched cameraId h

/-! ### Every step -/

/-- **A request begins.** -/
theorem inv_put {initial : ZoneMap F} {s t : Server F} {cameraId : String} {list : List (Zone F)}
    (hs : Inv initial s) (horder : InOrder s (.put cameraId list))
    (h : zoneStep s (.put cameraId list) = some t) : Inv initial t := by
  have hunused : s.calls s.next = .unused := hs.fresh s.next (Nat.le_refl _)
  -- what the request is, and that its copy is of the map
  obtain ⟨call, rfl, hcall, hcopied, hsame⟩ : ∃ call, t = { s with
      next := s.next + 1, calls := Function.update s.calls s.next call } ∧
      (∀ c l e, call ≠ .returned c l e) ∧
      (∀ a ∈ call.copy, a.2.2 a.1 = entry a.2.1 ∧ ∀ x, x ≠ a.1 → a.2.2 x = s.memory x) ∧
      ∀ a ∈ call.copy, ∀ k, ∀ b ∈ (s.calls k).copy, a.1 = b.1 := by
    rw [zoneStep] at h
    refine ⟨_, (Option.some.inj h).symm, ?_⟩
    split
    · refine ⟨?_, ?_, ?_⟩
      · intro _ _ _ h
        cases h
      · intro a ha
        cases ha
      · intro a ha
        cases ha
    · rename_i hvalid
      refine ⟨?_, ?_, ?_⟩
      · intro _ _ _ h
        cases h
      · rintro a ⟨⟩
        exact ⟨Function.update_self .., fun x hx => Function.update_of_ne hx ..⟩
      · rintro a ⟨⟩ k b hb
        exact (horder hvalid k (lt_next_of_copy hs hb) b hb).symm
  have hold : ∀ k, k ≠ s.next → Function.update s.calls s.next call k = s.calls k :=
    fun k hk => Function.update_of_ne hk ..
  have hqueue : ∀ n ∈ s.queue, n ≠ s.next := by
    refine ne_of_mem_queue hs fun _ _ _ hwritten => ?_
    rw [hunused] at hwritten
    cases hwritten
  refine inv_of_update hs rfl rfl ?_ hcall ?_ hs.queue_nodup ?_ hcopied hsame ⟨hs.setting.1, ?_⟩
  · intro c l e hreturned
    rw [hunused] at hreturned
    cases hreturned
  · exact fresh_begin hs.fresh call
  · intro n hn
    dsimp only
    rw [hold n (hqueue n hn)]
    exact hs.queued n hn
  · intro n hn a ha
    dsimp only at ha
    rw [hold n (hqueue n (List.mem_of_getLast? hn))] at ha
    exact hs.setting.2 n hn a ha

/-- **The row is written.** -/
theorem inv_persists {initial : ZoneMap F} {s : Server F} {n : ℕ} {cameraId : String}
    {list : List (Zone F)} {map : ZoneMap F} (hs : Inv initial s)
    (hn : s.calls n = .persisting cameraId list map) :
    Inv initial { s with
      setting := map
      calls := Function.update s.calls n (.written cameraId list map)
      queue := s.queue ++ [n] } := by
  have hmem : (cameraId, list, map) ∈ (s.calls n).copy := by
    rw [hn]
    rfl
  have hself : Function.update s.calls n (.written cameraId list map) n
      = .written cameraId list map := Function.update_self ..
  have hold : ∀ k, k ≠ n → Function.update s.calls n (.written cameraId list map) k = s.calls k :=
    fun k hk => Function.update_of_ne hk ..
  have hqueue : ∀ k ∈ s.queue, k ≠ n := by
    refine ne_of_mem_queue hs fun _ _ _ hwritten => ?_
    rw [hn] at hwritten
    cases hwritten
  refine inv_of_update hs rfl rfl ?_ ?_ ?_ ?_ ?_ ?_ ?_ ⟨?_, ?_⟩
  · intro c l e hreturned
    rw [hn] at hreturned
    cases hreturned
  · intro c l e hreturned
    cases hreturned
  · exact fresh_update hs.fresh (lt_next_of_copy hs hmem) _
  · refine List.nodup_append.2 ⟨hs.queue_nodup, List.pairwise_singleton _ n, ?_⟩
    intro a ha b hb
    rw [List.mem_singleton.1 hb]
    exact hqueue a ha
  · intro k hk
    rcases List.mem_append.1 hk with hk | hk
    · dsimp only
      rw [hold k (hqueue k hk)]
      exact hs.queued k hk
    · rw [List.mem_singleton.1 hk]
      exact ⟨cameraId, list, map, hself⟩
  · rintro a ⟨⟩
    exact hs.copied n _ hmem
  · rintro a ⟨⟩ k b hb
    exact hs.sameCamera n k _ hmem b hb
  · intro hempty
    simp at hempty
  · intro k hk a ha
    dsimp only at hk ha
    rw [List.getLast?_concat] at hk
    cases hk
    rw [hself] at ha
    cases ha
    rfl

/-- The row is not written. -/
theorem inv_persistFails {initial : ZoneMap F} {s : Server F} {n : ℕ} {cameraId : String}
    {list : List (Zone F)} {map : ZoneMap F} (hs : Inv initial s)
    (hn : s.calls n = .persisting cameraId list map) :
    Inv initial { s with calls := Function.update s.calls n (.failed cameraId) } := by
  have hmem : (cameraId, list, map) ∈ (s.calls n).copy := by
    rw [hn]
    rfl
  have hold : ∀ k, k ≠ n → Function.update s.calls n (.failed cameraId) k = s.calls k :=
    fun k hk => Function.update_of_ne hk ..
  have hqueue : ∀ k ∈ s.queue, k ≠ n := by
    refine ne_of_mem_queue hs fun _ _ _ hwritten => ?_
    rw [hn] at hwritten
    cases hwritten
  refine inv_of_update hs rfl rfl ?_ ?_ ?_ hs.queue_nodup ?_ ?_ ?_ ⟨hs.setting.1, ?_⟩
  · intro c l e hreturned
    rw [hn] at hreturned
    cases hreturned
  · intro c l e hreturned
    cases hreturned
  · exact fresh_update hs.fresh (lt_next_of_copy hs hmem) _
  · intro k hk
    dsimp only
    rw [hold k (hqueue k hk)]
    exact hs.queued k hk
  · intro a ha
    cases ha
  · intro a ha
    cases ha
  · intro k hk a ha
    dsimp only at ha
    rw [hold k (hqueue k (List.mem_of_getLast? hk))] at ha
    exact hs.setting.2 k hk a ha

/-- For the other cameras no request has returned that had not before. -/
theorem returned_returns {s : Server F} {n : ℕ} {cameraId id : String} {list : List (Zone F)}
    {map : ZoneMap F} {ended : ℕ} (hn : s.calls n = .written cameraId list map) (hid : id ≠ cameraId) :
    ∀ k l e, Function.update s.calls n (.returned cameraId list ended) k = .returned id l e ↔
      s.calls k = .returned id l e := by
  refine returned_update ?_ ?_
  · intro l e h
    rw [hn] at h
    cases h
  · intro l e h
    cases h
    exact hid rfl

/-- The request that returns is the last one for its camera. -/
theorem last_returns {initial : ZoneMap F} {s : Server F} {n : ℕ} {cameraId : String}
    {list : List (Zone F)} {map : ZoneMap F} (hs : Inv initial s)
    (hn : s.calls n = .written cameraId list map) (hentry : map cameraId = entry list)
    (hothers : ∀ x, x ≠ cameraId → map x = s.memory x) {id : String} {k : ℕ} {l : List (Zone F)}
    {e : ℕ} (h : Function.update s.calls n (.returned cameraId list s.next) k = .returned id l e) :
    ∃ k' l' e', Function.update s.calls n (.returned cameraId list s.next) k' = .returned id l' e' ∧
      map id = entry l' ∧ ∀ m l'' e'',
        Function.update s.calls n (.returned cameraId list s.next) m = .returned id l'' e'' →
          m < e' := by
  by_cases hid : id = cameraId
  · -- every request for the camera began before this one returned
    subst hid
    refine ⟨n, list, s.next, Function.update_self .., hentry, ?_⟩
    intro k' l' e' h'
    by_cases hk' : k' = n
    · have hmem : (id, list, map) ∈ (s.calls n).copy := by
        rw [hn]
        rfl
      rw [hk']
      exact lt_next_of_copy hs hmem
    · rw [Function.update_of_ne hk'] at h'
      exact lt_next_of_returned hs h'
  · rw [returned_returns hn hid] at h
    obtain ⟨k', l', e', hk', hentry', hlater⟩ := hs.last id k l e h
    refine ⟨k', l', e', (returned_returns hn hid k' l' e').2 hk', ?_, ?_⟩
    · rw [hothers id hid]
      exact hentry'
    · intro m l'' e'' hm
      exact hlater m l'' e'' ((returned_returns hn hid m l'' e'').1 hm)

/-- **The request that wrote the row first returns.** -/
theorem inv_returns {initial : ZoneMap F} {s : Server F} {n : ℕ} {cameraId : String}
    {list : List (Zone F)} {map : ZoneMap F} (hs : Inv initial s)
    (hn : s.calls n = .written cameraId list map) (hhead : s.queue.head? = some n) :
    Inv initial { s with
      memory := map
      calls := Function.update s.calls n (.returned cameraId list s.next)
      queue := s.queue.erase n } := by
  obtain ⟨queue, hqueue⟩ : ∃ queue, s.queue = n :: queue := by
    cases hq : s.queue with
    | nil => simp [hq] at hhead
    | cons m queue =>
        rw [hq] at hhead
        cases hhead
        exact ⟨queue, rfl⟩
  have hnodup : n ∉ queue ∧ queue.Nodup := by
    have := hs.queue_nodup
    rw [hqueue, List.nodup_cons] at this
    exact this
  have hmem : (cameraId, list, map) ∈ (s.calls n).copy := by
    rw [hn]
    rfl
  obtain ⟨hentry, hothers⟩ := hs.copied n _ hmem
  dsimp only at hentry hothers
  have hself : Function.update s.calls n (.returned cameraId list s.next) n
      = .returned cameraId list s.next := Function.update_self ..
  have hold : ∀ k, k ≠ n →
      Function.update s.calls n (.returned cameraId list s.next) k = s.calls k :=
    fun k hk => Function.update_of_ne hk ..
  have hcopy : ∀ k, ∀ a ∈ (Function.update s.calls n (.returned cameraId list s.next) k).copy,
      a ∈ (s.calls k).copy := by
    intro k a ha
    rcases copy_update ha with ⟨-, ha⟩ | ⟨-, ha⟩
    · cases ha
    · exact ha
  rw [hqueue, List.erase_cons_head]
  constructor <;> dsimp only
  case fresh => exact fresh_update hs.fresh (lt_next_of_copy hs hmem) _
  case queue_nodup => exact hnodup.2
  case queued =>
    intro k hk
    rw [hold k fun h => hnodup.1 (h ▸ hk)]
    exact hs.queued k (by rw [hqueue]; exact List.mem_cons_of_mem _ hk)
  case sameCamera =>
    intro k l a ha b hb
    exact hs.sameCamera k l a (hcopy k a ha) b (hcopy l b hb)
  case copied =>
    intro k a ha
    obtain ⟨hentry', hothers'⟩ := hs.copied k a (hcopy k a ha)
    refine ⟨hentry', fun x hx => ?_⟩
    have hid : a.1 = cameraId := hs.sameCamera k n a (hcopy k a ha) _ hmem
    rw [hothers' x hx, hothers x (hid ▸ hx)]
  case setting =>
    constructor
    · intro hempty
      have hlast := hs.setting.2 n
      rw [hqueue, hempty] at hlast
      exact hlast rfl _ hmem
    · intro k hk a ha
      refine hs.setting.2 k ?_ a (hcopy k a ha)
      cases queue with
      | nil => cases hk
      | cons m queue =>
          rw [hqueue, List.getLast?_cons_cons]
          exact hk
  case last =>
    intro id k l e h
    exact last_returns hs hn hentry hothers h
  case untouched =>
    intro id h
    have hid : id ≠ cameraId := by
      rintro rfl
      exact h n list s.next hself
    rw [hothers id hid]
    refine hs.untouched id fun k l e hk => ?_
    exact h k l e ((returned_returns hn hid k l e).2 hk)

/-- **Every step that respects other requests keeps the invariant.** -/
theorem inv_zoneStep {initial : ZoneMap F} {s t : Server F} {e : ZoneEvent F}
    (horder : InOrder s e) (hs : Inv initial s) (h : zoneStep s e = some t) : Inv initial t := by
  cases e with
  | put cameraId list => exact inv_put hs horder h
  | persists n =>
      rw [zoneStep] at h
      split at h
      · rename_i hn
        cases h
        exact inv_persists hs hn
      · cases h
  | persistFails n =>
      rw [zoneStep] at h
      split at h
      · rename_i hn
        cases h
        exact inv_persistFails hs hn
      · cases h
  | returns n =>
      rw [zoneStep] at h
      split at h
      · rename_i hn
        cases h
        exact inv_returns hs hn horder
      · cases h

/-- A zone of a yard. -/
def yard : Zone ℕ := ⟨"yard", .intrusion, [(0, 0), (100, 0), (100, 100)], 5⟩

/-- Two requests for one camera overlap and return in their order; then one for another camera is
made. -/
def putInOrder : List (ZoneEvent ℕ) := [
  .put "a" [yard], .put "a" [], .persists 0, .persists 1, .returns 0, .returns 1,
  .put "b" [yard], .persists 2, .returns 2]

/-- Two requests for different cameras copy the map before either of them has returned. -/
def putAcross : List (ZoneEvent ℕ) := [
  .put "a" [yard], .put "b" [yard], .persists 0, .returns 0, .persists 1, .returns 1]

end Zones
