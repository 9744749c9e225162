/-
**The cap on the outputs of a hub.**

`try_add_output` refuses an output when the map holds `max_outputs` of them.  The map holds the
outputs that wait for their task; once a task has taken its output, the output is attached as
before, but it is no longer counted.

Main definitions:

* `HubOutputs.Registry.attached` — how many outputs are attached;
* `HubOutputs.Registry.owned` — how many of them a task has taken;
* `HubOutputs.CapRespected` — the cap, and the answers of `try_add_output`.

Main results:

* `HubOutputs.Registry.attached_eq` — **attached outputs wait in the map or are owned by a task**;
* `HubOutputs.Registry.attached_taskStep_le`, `HubOutputs.Registry.attached_insert_le` — how their
  number changes;
* `HubOutputs.capRespected_iff` — **the cap is respected exactly when no call of `try_add_output`
  finds the map below the cap while the attached outputs have reached it**.
-/

import MibeeEye.HubOutputs
import Mathlib.Data.List.Perm.Basic
import Mathlib.Data.List.Nodup

set_option relaxedAutoImplicit false
set_option autoImplicit false

namespace HubOutputs

open Machine

/-- Replacing an element of a list, with what stands before and after it. -/
theorem exists_append_set {α : Type} {l : List α} {i : ℕ} {a : α} (ha : l[i]? = some a) (b : α) :
    ∃ l₁ l₂, l = l₁ ++ a :: l₂ ∧ l.set i b = l₁ ++ b :: l₂ := by
  obtain ⟨hi, rfl⟩ := List.getElem?_eq_some_iff.1 ha
  obtain ⟨l₁, l₂, heq, -, hset⟩ := @List.exists_of_set α i b l hi
  exact ⟨l₁, l₂, heq, hset⟩

/-! ### Counting the outputs -/

namespace Registry

/-- Added, not removed, and its task has not ended. -/
def IsAttached (r : Registry) (id : OutputId) : Prop :=
  id ∉ r.removed ∧ ∀ t ∈ r.tasks, t.id = id → t.phase ≠ .ended

instance (r : Registry) (id : OutputId) : Decidable (r.IsAttached id) :=
  inferInstanceAs (Decidable (_ ∧ _))

/-- How many outputs are attached. -/
def attached (r : Registry) : ℕ := r.added.countP (r.IsAttached ·)

/-- The task has taken its output, has not ended, and the output was not removed. -/
def Owns (r : Registry) (t : Task) : Prop :=
  t.phase.owns = true ∧ t.phase ≠ .ended ∧ t.id ∉ r.removed

instance (r : Registry) (t : Task) : Decidable (r.Owns t) :=
  inferInstanceAs (Decidable (_ ∧ _ ∧ _))

/-- How many outputs are owned by a task. -/
def owned (r : Registry) : ℕ := r.tasks.countP (r.Owns ·)

/-- The outputs of the tasks that have taken one. -/
def takers (r : Registry) : List OutputId :=
  (r.tasks.filter (·.phase.owns)).map Task.id

/-- An output is added once, and is started by the task that takes it. -/
structure Counted (r : Registry) : Prop where
  added_nodup : r.added.Nodup
  added_cases : ∀ id ∈ r.added, id ∈ r.outputs ∨ id ∈ r.started ∨ id ∈ r.removed
  takers_perm : r.takers.Perm r.started

theorem counted_insert {r : Registry} {id : OutputId} (hc : r.Counted) (hid : id ∉ r.added) :
    (r.insert id).Counted where
  added_nodup := List.nodup_cons.2 ⟨hid, hc.added_nodup⟩
  added_cases := by
    intro x hx
    rcases List.mem_cons.1 hx with rfl | hx
    · exact .inl List.mem_cons_self
    · exact (hc.added_cases x hx).imp_left (List.mem_cons_of_mem _)
  takers_perm := hc.takers_perm

theorem counted_remove {r : Registry} (hc : r.Counted) (id : OutputId) :
    (r.remove id).Counted where
  added_nodup := hc.added_nodup
  added_cases := by
    intro x hx
    rw [mem_removed_remove]
    by_cases hxid : x = id
    · exact .inr (.inr (.inr ⟨hxid, hxid ▸ hx⟩))
    · rcases hc.added_cases x hx with h | h | h
      · exact .inl (List.mem_filter.2 ⟨h, by simpa using hxid⟩)
      · exact .inr (.inl h)
      · exact .inr (.inr (.inl h))
  takers_perm := hc.takers_perm

theorem counted_spawn {r : Registry} (hc : r.Counted) (id : OutputId) : (r.spawn id).Counted where
  added_nodup := hc.added_nodup
  added_cases := hc.added_cases
  takers_perm := by
    have : (r.spawn id).takers = r.takers := by simp [takers, spawn, Phase.owns]
    rw [this]
    exact hc.takers_perm

theorem takers_setPhase {r : Registry} {i : ℕ} {t : Task} {p : Phase}
    (ht : r.tasks[i]? = some t) (hp : p.owns = t.phase.owns) :
    (r.setPhase i t p).takers = r.takers := by
  obtain ⟨l₁, l₂, heq, hset⟩ := exists_append_set ht ⟨t.id, p⟩
  rw [takers, takers, setPhase, hset, heq]
  cases ho : t.phase.owns with
  | true => simp [hp, ho]
  | false => simp [hp, ho]

theorem takers_take {r : Registry} {i : ℕ} {t : Task} (ht : r.tasks[i]? = some t)
    (hp : t.phase = .waiting) : (r.take i t).takers.Perm (t.id :: r.takers) := by
  obtain ⟨l₁, l₂, heq, hset⟩ := exists_append_set ht ⟨t.id, .starting⟩
  have hown : t.phase.owns = false := by rw [hp]; rfl
  have hstart : Phase.starting.owns = true := rfl
  rw [takers, takers, take, setPhase, hset, heq]
  simp [hown, hstart, List.perm_middle]

theorem counted_taskStep {r r' : Registry} {stopped : Bool} {i : ℕ} {a : Action}
    (hc : r.Counted) (h : r.taskStep stopped i a = some r') : r'.Counted := by
  obtain ⟨t, ht, -, heffect⟩ := taskStep_cases h
  cases heffect with
  | take hp hid =>
      refine ⟨hc.added_nodup, ?_, (takers_take ht hp).trans (hc.takers_perm.cons t.id)⟩
      intro x hx
      by_cases hxid : x = t.id
      · exact .inr (.inl (hxid ▸ List.mem_cons_self))
      · rcases hc.added_cases x hx with h | h | h
        · exact .inl (List.mem_filter.2 ⟨h, by simpa using hxid⟩)
        · exact .inr (.inl (List.mem_cons_of_mem _ h))
        · exact .inr (.inr h)
  | receive next hp hn =>
      have htakers := takers_setPhase (p := .sending next) ht (by rw [hp]; rfl)
      exact ⟨hc.added_nodup, hc.added_cases, htakers ▸ hc.takers_perm⟩
  | finish ha hp =>
      have htakers := takers_setPhase (p := .ended) ht hp.symm
      exact ⟨hc.added_nodup, hc.added_cases, htakers ▸ hc.takers_perm⟩
  | goOn p ha howns hp =>
      exact ⟨hc.added_nodup, hc.added_cases, takers_setPhase ht howns ▸ hc.takers_perm⟩

/-- **Attached outputs wait in the map or are owned by a task.** -/
theorem attached_eq {r : Registry} (hc : r.Consistent) (hn : r.Counted) :
    r.attached = r.outputs.length + r.owned := by
  have hmem : ∀ t ∈ r.tasks, t.phase.owns = true → t.id ∈ r.takers := fun t ht hown =>
    List.mem_map.2 ⟨t, List.mem_filter.2 ⟨ht, hown⟩, rfl⟩
  have htakers : r.takers.Nodup := hn.takers_perm.nodup_iff.2 hc.started_nodup
  have hown : (r.tasks.filter (r.Owns ·)).Sublist (r.tasks.filter (·.phase.owns)) :=
    List.monotone_filter_right _ fun t ht => (of_decide_eq_true ht).1
  have hperm : (r.added.filter (r.IsAttached ·)).Perm
      (r.outputs ++ (r.tasks.filter (r.Owns ·)).map Task.id) := by
    rw [List.perm_ext_iff_of_nodup (hn.added_nodup.filter _)]
    · intro id
      simp only [List.mem_filter, decide_eq_true_eq, List.mem_append, List.mem_map]
      constructor
      · rintro ⟨hadd, hrem, hend⟩
        rcases hn.added_cases id hadd with h | h | h
        · exact .inl h
        · obtain ⟨t, ht, rfl⟩ := List.mem_map.1 (hn.takers_perm.mem_iff.2 h)
          obtain ⟨ht, hown⟩ := List.mem_filter.1 ht
          exact .inr ⟨t, ⟨ht, hown, hend t ht rfl, hrem⟩, rfl⟩
        · exact absurd h hrem
      · rintro (hid | ⟨t, ⟨ht, hown, hend, hrem⟩, rfl⟩)
        · refine ⟨hc.outputs_added id hid, fun h => (hc.removed_absent id h).1 hid, ?_⟩
          rintro t ht rfl hend
          exact hc.outputs_unstarted _ hid (hc.owner_started t ht (by rw [hend]; rfl))
        · refine ⟨hc.started_added _ (hc.owner_started t ht hown), hrem, ?_⟩
          -- Two tasks that have taken the same output are the same task.
          intro u hu hid huend
          have huown : u.phase.owns = true := by rw [huend]; rfl
          have hut : u = t := List.inj_on_of_nodup_map htakers
            (List.mem_filter.2 ⟨hu, huown⟩) (List.mem_filter.2 ⟨ht, hown⟩) hid
          exact hend (hut ▸ huend)
    · refine List.Nodup.append hc.outputs_nodup (htakers.sublist (hown.map Task.id)) ?_
      intro id hid hid'
      exact hc.outputs_unstarted id hid
        (hn.takers_perm.mem_iff.1 ((hown.map Task.id).subset hid'))
  have := hperm.length_eq
  rw [List.length_append, List.length_map] at this
  rw [attached, owned, List.countP_eq_length_filter, List.countP_eq_length_filter, this]

/-! ### How their number changes -/

theorem attached_insert_le {r : Registry} (id : OutputId) :
    (r.insert id).attached ≤ r.attached + 1 := by
  have : (r.insert id).attached = (id :: r.added).countP (r.IsAttached ·) := rfl
  rw [this, List.countP_cons]
  split <;> simp [attached]

theorem attached_le_of_imp {r r' : Registry} (hadd : r'.added = r.added)
    (himp : ∀ id, r'.IsAttached id → r.IsAttached id) : r'.attached ≤ r.attached := by
  rw [attached, attached, hadd]
  exact List.countP_mono_left fun id _ h => decide_eq_true (himp id (of_decide_eq_true h))

theorem attached_remove_le {r : Registry} (id : OutputId) :
    (r.remove id).attached ≤ r.attached := by
  refine attached_le_of_imp rfl fun x hx => ⟨?_, hx.2⟩
  exact fun h => hx.1 (mem_removed_remove.2 (.inl h))

theorem attached_spawn_le {r : Registry} (id : OutputId) :
    (r.spawn id).attached ≤ r.attached :=
  attached_le_of_imp rfl fun _ hx => ⟨hx.1, fun t ht => hx.2 t (List.mem_append_left _ ht)⟩

theorem attached_setPhase_le {r r' : Registry} {i : ℕ} {t : Task} {p : Phase}
    (ht : r.tasks[i]? = some t) (hend : t.phase ≠ .ended) (hadd : r'.added = r.added)
    (hrem : r'.removals = r.removals) (htasks : r'.tasks = (r.setPhase i t p).tasks) :
    r'.attached ≤ r.attached := by
  refine attached_le_of_imp hadd fun x hx => ⟨?_, ?_⟩
  · have := hx.1
    rwa [removed, hrem] at this
  · intro u hu hid huend
    obtain ⟨l₁, l₂, heq, hset⟩ := exists_append_set ht ⟨t.id, p⟩
    have hmem : u ∈ l₁ ++ ⟨t.id, p⟩ :: l₂ := by
      rw [heq] at hu
      rcases List.mem_append.1 hu with hu | hu
      · exact List.mem_append_left _ hu
      · rcases List.mem_cons.1 hu with rfl | hu
        · exact absurd huend hend
        · exact List.mem_append_right _ (List.mem_cons_of_mem _ hu)
    refine hx.2 u ?_ hid huend
    rw [htasks, setPhase, hset]
    exact hmem

theorem attached_taskStep_le {r r' : Registry} {stopped : Bool} {i : ℕ} {a : Action}
    (h : r.taskStep stopped i a = some r') : r'.attached ≤ r.attached := by
  obtain ⟨t, ht, hend, heffect⟩ := taskStep_cases h
  cases heffect with
  | take hp hid => exact attached_setPhase_le ht hend rfl rfl rfl
  | receive next hp hn => exact attached_setPhase_le ht hend rfl rfl rfl
  | finish ha hp => exact attached_setPhase_le ht hend rfl rfl rfl
  | goOn p ha howns hp => exact attached_setPhase_le ht hend rfl rfl rfl

end Registry

theorem counted_step {h h' : Hub} {e : Event} (hc : h.registry.Counted)
    (hs : step h e = some h') : h'.registry.Counted :=
  registry_step hs hc (fun _ hid => Registry.counted_insert hc hid) (Registry.counted_spawn hc)
    (Registry.counted_remove hc) ⟨hc.added_nodup, hc.added_cases, hc.takers_perm⟩
    (fun _ _ _ _ hr => Registry.counted_taskStep hc hr)

theorem counted_passes {es : List Event} {u : Hub} (h : Passes step Hub.new es u) :
    u.registry.Counted :=
  passes_invariant (P := fun _ => True) (I := fun u => u.registry.Counted)
    (fun _ _ _ _ hc hs => counted_step hc hs) (fun _ _ => trivial)
    ⟨List.nodup_nil, nofun, List.Perm.refl _⟩ h

/-- A step attaches an output only if it puts it in the map. -/
theorem attached_step_le {h h' : Hub} {e : Event} (hs : step h e = some h') :
    h'.registry.attached ≤ h.registry.attached + 1 ∧
    (e.inserts = none → h'.registry.attached ≤ h.registry.attached) := by
  have hle : h'.registry.attached ≤ h.registry.attached →
      h'.registry.attached ≤ h.registry.attached + 1 ∧
      (e.inserts = none → h'.registry.attached ≤ h.registry.attached) :=
    fun h => ⟨Nat.le_succ_of_le h, fun _ => h⟩
  obtain hr | ⟨id, hid, -, hr⟩ | ⟨id, hr⟩ | ⟨id, hr⟩ | hr | ⟨i, a, -, hr⟩ := step_cases hs
  · exact hle (Nat.le_of_eq (congrArg _ hr))
  · rw [hr]
    exact ⟨Registry.attached_insert_le id, fun h => absurd (hid.symm.trans h) nofun⟩
  · exact hle (by rw [hr]; exact Registry.attached_spawn_le id)
  · exact hle (by rw [hr]; exact Registry.attached_remove_le id)
  · exact hle (by rw [hr]; exact Nat.le_refl _)
  · exact hle (Registry.attached_taskStep_le hr)

/-! ### The cap -/

/-- The event does not add an output, unless `try_add_output` does. -/
def Event.viaTry : Event → Bool
  | .addOutput _ | .addOutputAtRuntime _ => false
  | _ => true

theorem Event.eq_tryInsert_of_viaTry {e : Event} {id : OutputId} (he : e.viaTry = true)
    (hins : e.inserts = some id) : e = .tryInsert id := by
  cases e with
  | addOutput _ => cases he
  | addOutputAtRuntime _ => cases he
  | tryInsert _ =>
      cases hins
      rfl
  | _ => cases hins

/-- `try_add_output` returns a 503 error. -/
def Hub.Refuses (h : Hub) (permits : ℕ) : Prop :=
  ∃ msg, h.tryAddOutput permits = .error ("503: " ++ msg)

/-- At most `max_outputs` outputs are attached, and `try_add_output` refuses one exactly when there
are that many or no permit is available. -/
structure CapRespected (es : List Event) : Prop where
  attached_le : ∀ u, Passes step Hub.new es u → u.registry.attached ≤ maxOutputs
  refuses_iff : ∀ u permits v, Occurs step Hub.new es u (.tryAddOutput permits) →
    step u (.tryAddOutput permits) = some v →
    (u.Refuses permits ↔ maxOutputs ≤ u.registry.attached ∨ permits = 0)

theorem refuses_iff_outputs (h : Hub) (permits : ℕ) :
    h.Refuses permits ↔ maxOutputs ≤ h.registry.outputs.length ∨ permits = 0 := by
  rw [Hub.Refuses, Hub.tryAddOutput]
  split
  · rename_i hlen
    refine iff_of_true ⟨"Maximum outputs (16) reached for this stream", ?_⟩ (.inl hlen)
    exact congrArg Except.error (by decide)
  · rename_i hlen
    split
    · rename_i hp
      refine iff_of_true ⟨"All stream slots are exhausted. Try again later.", ?_⟩ (.inr hp)
      exact congrArg Except.error (by decide)
    · rename_i hp
      refine iff_of_false (fun ⟨_, h⟩ => nomatch h) ?_
      exact not_or.2 ⟨hlen, hp⟩

/-- Only `try_add_output` passes its checks. -/
theorem checked_of_step {h h' : Hub} {e : Event} (he : e.viaTry = true) (hs : step h e = some h')
    (hc : h'.call = .checked) :
    e.inserts = none ∧ (h.call = .checked ∨
      ∃ permits, e = .tryAddOutput permits ∧ ¬ h.Refuses permits) := by
  cases e with
  | addOutput id => cases he
  | addOutputAtRuntime id => cases he
  | tryInsert id =>
      rw [step] at hs
      split at hs
      · exact absurd hc (addOutput_cases hs).2.2
      · cases hs
  | tryAddOutput permits =>
      refine ⟨rfl, .inr ⟨permits, rfl, ?_⟩⟩
      rintro ⟨msg, hmsg⟩
      rw [step, hmsg] at hs
      split at hs
      · rename_i hidle
        cases hs
        rw [hidle] at hc
        cases hc
      · cases hs
  | removeOutput id =>
      cases hs
      exact ⟨rfl, .inl hc⟩
  | stop =>
      cases hs
      exact ⟨rfl, .inl hc⟩
  | task i a =>
      obtain ⟨r, -, rfl⟩ := Option.map_eq_some_iff.1 hs
      exact ⟨rfl, .inl hc⟩
  | _ =>
      rw [step] at hs
      split at hs <;> cases hs
      first | exact ⟨rfl, .inl hc⟩ | cases hc

/-- The cap is kept by a step, if `try_add_output` passes its checks below it only. -/
theorem attached_le_step {h h' : Hub} {e : Event} (he : e.viaTry = true)
    (hle : h.registry.attached ≤ maxOutputs)
    (hchecked : h.call = .checked → h.registry.attached < maxOutputs)
    (hpass : ∀ permits, e = .tryAddOutput permits → ¬ h.Refuses permits →
      h.registry.attached < maxOutputs)
    (hs : step h e = some h') :
    h'.registry.attached ≤ maxOutputs ∧
    (h'.call = .checked → h'.registry.attached < maxOutputs) := by
  obtain ⟨hsucc, hsame⟩ := attached_step_le hs
  constructor
  · cases hins : e.inserts with
    | none => exact Nat.le_trans (hsame hins) hle
    | some id =>
        obtain rfl := Event.eq_tryInsert_of_viaTry he hins
        have hcall : h.call = .checked := by
          by_contra hcall
          rw [step, if_neg hcall] at hs
          cases hs
        exact Nat.le_trans hsucc (hchecked hcall)
  · intro hc
    obtain ⟨hins, hcall | ⟨permits, rfl, hok⟩⟩ := checked_of_step he hs hc
    · exact Nat.lt_of_le_of_lt (hsame hins) (hchecked hcall)
    · exact Nat.lt_of_le_of_lt (hsame hins) (hpass permits rfl hok)

/-- **The cap is respected exactly when no call of `try_add_output` finds the map below the cap while
the attached outputs have reached it**, in runs where all outputs are added by that method. -/
theorem capRespected_iff (es : List Event) (hvia : ∀ e ∈ es, e.viaTry = true) :
    CapRespected es ↔ ∀ u permits v, Occurs step Hub.new es u (.tryAddOutput permits) →
      step u (.tryAddOutput permits) = some v → 0 < permits →
      u.registry.outputs.length < maxOutputs →
      u.registry.outputs.length + u.registry.owned < maxOutputs := by
  constructor
  · intro hcap u permits v ho hv hp hlen
    have hu := ho.passes_before
    rw [← Registry.attached_eq (consistent_passes hu) (counted_passes hu)]
    by_contra hge
    have := (hcap.refuses_iff u permits v ho hv).2 (.inl (Nat.le_of_not_lt hge))
    rcases (refuses_iff_outputs u permits).1 this with h | h <;> omega
  · intro hfree
    have hlt : ∀ u permits v, Occurs step Hub.new es u (.tryAddOutput permits) →
        step u (.tryAddOutput permits) = some v → ¬ u.Refuses permits →
        u.registry.attached < maxOutputs := by
      intro u permits v ho hv hok
      have hu := ho.passes_before
      rw [refuses_iff_outputs, not_or] at hok
      rw [Registry.attached_eq (consistent_passes hu) (counted_passes hu)]
      exact hfree u permits v ho hv (Nat.pos_of_ne_zero hok.2) (Nat.lt_of_not_le hok.1)
    refine ⟨fun u hu => ?_, ?_⟩
    -- Between the checks of `try_add_output` and its insertion the number does not grow.
    · refine (passes_induction (I := fun u => u.registry.attached ≤ maxOutputs ∧
        (u.call = .checked → u.registry.attached < maxOutputs)) ?_ ?_ hu).1
      · intro u e v ho ⟨hle, hchecked⟩ hs
        refine attached_le_step (hvia e ho.mem) hle hchecked ?_ hs
        rintro permits rfl
        exact hlt u permits v ho hs
      · exact ⟨Nat.zero_le _, fun h => by cases h⟩
    · intro u permits v ho hv
      have hu := ho.passes_before
      constructor
      · intro href
        refine ((refuses_iff_outputs u permits).1 href).imp_left fun hlen => ?_
        rw [Registry.attached_eq (consistent_passes hu) (counted_passes hu)]
        exact Nat.le_add_right_of_le hlen
      · intro h
        by_contra hok
        have := hlt u permits v ho hv hok
        rw [refuses_iff_outputs, not_or] at hok
        rcases h with h | h
        · exact absurd h (Nat.not_le.2 this)
        · exact hok.2 h

/-- Outputs are added to a running hub, and each is taken by its task before the next one. -/
def addToRunning (n : ℕ) : List Event :=
  [.run, .runCollect [], .runReturns] ++ (List.range n).flatMap fun i =>
    [.tryAddOutput 1, .tryInsert i, .spawnAdded, .task i .take]

theorem capRespected_addToRunning_two :
    (∀ e ∈ addToRunning 2, e.viaTry = true) ∧ CapRespected (addToRunning 2) := by
  have hvia : ∀ e ∈ addToRunning 2, e.viaTry = true := by decide
  refine ⟨hvia, (capRespected_iff _ hvia).2 ?_⟩
  intro u permits v ho _ _ _
  have hlt : ∀ i < 11, ((exec step Hub.new ((addToRunning 2).take i)).all fun u =>
      u.registry.outputs.length + u.registry.owned < maxOutputs) = true := by decide
  obtain ⟨i, hi, hu⟩ := ho.exists_getElem
  have := hlt i (List.getElem?_eq_some_iff.1 hi).1
  rw [hu] at this
  exact of_decide_eq_true this

/-- The cap is not respected when a seventeenth output is added to a running hub. -/
theorem not_capRespected_addToRunning_seventeen :
    (∀ e ∈ addToRunning 17, e.viaTry = true) ∧ ¬ CapRespected (addToRunning 17) := by
  constructor
  · decide
  · intro hcap
    obtain ⟨u, hu, hu17⟩ : ∃ u, exec step Hub.new (addToRunning 17) = some u ∧
        u.registry.attached = 17 := Option.map_eq_some_iff.1 (by decide)
    have := hcap.attached_le u ⟨_, List.prefix_refl _, hu⟩
    rw [hu17] at this
    exact absurd this (by decide)

end HubOutputs
