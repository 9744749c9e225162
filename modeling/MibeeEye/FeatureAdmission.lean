/-
**Admission within the budget.**

What `Features.plan` owes for a mode other than `"all"`, and the inputs for which it does.  There are
two ways to fail: the name of the mode is compared without regard to case, and two sums are taken
without the care of the comparison between them, which saturates.

Main definitions:

* `Features.Budgeted` — what the decisions have to be;
* `Features.DependenciesFirst` — the order of the inputs;
* `Features.Admissible` — the inputs for which the decisions are so.

Main results:

* `Features.Budgeted.push` — **one more decision**;
* `Features.budgeted_foldlM` — the decisions of the loop, where no sum overflows;
* `Features.budgeted_map_iff` — the decisions where the mode is taken for `"all"`;
* `Features.plan_budgeted_iff` — **which inputs are admitted within the budget**.
-/

import MibeeEye.FeatureGate

set_option relaxedAutoImplicit false
set_option autoImplicit false

namespace Features

open FixedWidth

/-! ### What is owed -/

/-- The costs of what is admitted. -/
def admittedCost (ds : List FeatureDecision) : ℕ :=
  ((ds.filter FeatureDecision.admitted).map FeatureDecision.costMib).sum

/-- **The decisions about features are within a tier, a budget and their dependencies**, and refuse for
its cost only what does not fit. -/
structure Budgeted (size : String → Option ℕ) (tier : Tier) (budget : ℕ) (inputs : List FeatureInput)
    (ds : List FeatureDecision) : Prop where
  inOrder : List.Forall₂ (fun f d => d.name = f.name ∧ d.costMib = cost size f) inputs ds
  fits : admittedCost ds ≤ budget
  tiered : ∀ d ∈ ds, d.admitted = true → tier.includes d.name = true
  dependencies : ∀ p ∈ inputs.zip ds, p.2.admitted = true →
    ∀ e ∈ ds, p.1.dependsOn = some e.name → e.admitted = true
  refusals : ∀ pre d post, ds = pre ++ d :: post → d.reason = reasonOffBudget →
    budget < admittedCost pre + d.costMib

/-- No feature depends on itself or on a later one. -/
def DependenciesFirst (inputs : List FeatureInput) : Prop :=
  (∀ f ∈ inputs, f.dependsOn ≠ some f.name) ∧ inputs.Pairwise fun f g => f.dependsOn ≠ some g.name

instance (inputs : List FeatureInput) : Decidable (DependenciesFirst inputs) :=
  inferInstanceAs (Decidable (_ ∧ _))

/-- The features that an unlimited budget admits, where there are decisions against some names. -/
@[grind =] def wanted (tier : Tier) : List String → List FeatureInput → List FeatureInput
  | _, [] => []
  | off, f :: fs =>
      if Wanted tier off f then f :: wanted tier off fs else wanted tier (off ++ [f.name]) fs

/-- The costs of some features. -/
def totalCost (size : String → Option ℕ) (fs : List FeatureInput) : ℕ := (fs.map (cost size)).sum

/-- All that is enabled is in the tier, has its dependency enabled, and fits. -/
structure AllFits (size : String → Option ℕ) (tier : Tier) (budget : ℕ) (inputs : List FeatureInput) :
    Prop where
  fits : totalCost size (inputs.filter FeatureInput.enabled) ≤ budget
  tiered : ∀ f ∈ inputs, f.enabled = true → tier.includes f.name = true
  dependencies : ∀ f ∈ inputs, f.enabled = true →
    ∀ g ∈ inputs, f.dependsOn = some g.name → g.enabled = true

/-- **The inputs that are admitted within the budget**: the costs are numbers of 64 bits; a mode that
is `"all"` but for its case has nothing to refuse; and the largest of all budgets is not exceeded. -/
def Admissible (size : String → Option ℕ) (tier : Tier) (mode : String) (budget : ℕ)
    (inputs : List FeatureInput) : Prop :=
  (∀ f ∈ inputs, Measurable size f) ∧
    if Text.eqIgnoreAsciiCase mode "all" then AllFits size tier budget inputs
    else budget < 2 ^ 64 - 1 ∨ totalCost size (wanted tier [] inputs) < 2 ^ 64

variable {b : Build} {size : String → Option ℕ} {tier : Tier} {budget : ℕ}
  {done fs : List FeatureInput} {f : FeatureInput} {ds : List FeatureDecision} {d : FeatureDecision}
  {l l' : Ledger}

@[simp] theorem admittedCost_append (ds : List FeatureDecision) (d : FeatureDecision) :
    admittedCost (ds ++ [d]) = admittedCost ds + if d.admitted then d.costMib else 0 := by
  cases h : d.admitted <;> simp [admittedCost, h]

theorem totalCost_cons (f : FeatureInput) (fs : List FeatureInput) :
    totalCost size (f :: fs) = cost size f + totalCost size fs := rfl

/-! ### One more decision -/

theorem budgeted_nil : Budgeted size tier budget [] [] where
  inOrder := .nil
  fits := Nat.zero_le _
  tiered := by simp
  dependencies := by simp
  refusals := by simp

theorem DependenciesFirst.not_self (h : DependenciesFirst (done ++ f :: fs)) :
    f.dependsOn ≠ some f.name := h.1 f (by simp)

theorem DependenciesFirst.not_later (h : DependenciesFirst (done ++ f :: fs)) :
    ∀ g ∈ done, g.dependsOn ≠ some f.name := fun g hg =>
  (List.pairwise_append.1 h.2).2.2 g hg f (List.mem_cons_self ..)

/-- The reasons of a decision that may be made after others. -/
structure Justified (tier : Tier) (budget : ℕ) (ds : List FeatureDecision) (f : FeatureInput)
    (d : FeatureDecision) : Prop where
  admits : d.admitted = true → Wanted tier (refused ds) f ∧ admittedCost ds + d.costMib ≤ budget
  refuses : d.reason = reasonOffBudget → budget < admittedCost ds + d.costMib

/-- **One more decision.** -/
theorem Budgeted.push (h : Budgeted size tier budget done ds)
    (hdeps : DependenciesFirst (done ++ f :: fs)) (hname : d.name = f.name)
    (hcost : d.costMib = cost size f) (hd : Justified tier budget ds f d) :
    Budgeted size tier budget (done ++ [f]) (ds ++ [d]) where
  inOrder := List.rel_append h.inOrder (.cons ⟨hname, hcost⟩ .nil)
  fits := by
    rw [admittedCost_append]
    split
    · next ha => exact (hd.admits ha).2
    · exact h.fits
  tiered := by
    intro e he ha
    rcases List.mem_append.1 he with he | he
    · exact h.tiered e he ha
    · cases List.mem_singleton.1 he
      exact hname ▸ (hd.admits ha).1.2.1
  dependencies := by
    intro p hp ha e he hdep
    rw [List.zip_append h.inOrder.length_eq] at hp
    rcases List.mem_append.1 hp with hp | hp
    · rcases List.mem_append.1 he with he | he
      · exact h.dependencies p hp ha e he hdep
      · cases List.mem_singleton.1 he
        exact absurd (hname ▸ hdep) (hdeps.not_later p.1 (List.of_mem_zip hp).1)
    · cases List.mem_singleton.1 hp
      rcases List.mem_append.1 he with he | he
      · by_contra hoff
        refine (hd.admits ha).1.2.2 e.name hdep (mem_refused_iff.2 ⟨e, he, rfl, ?_⟩)
        rwa [Bool.not_eq_true] at hoff
      · cases List.mem_singleton.1 he
        exact absurd (hname ▸ hdep) hdeps.not_self
  refusals := by
    intro pre e post heq hr
    rcases List.append_eq_append_iff.1 heq with ⟨mid, rfl, hmid⟩ | ⟨mid, rfl, hmid⟩
    · rcases List.append_eq_singleton_iff.1 hmid.symm with ⟨rfl, hcons⟩ | ⟨-, hnil⟩
      · cases hcons
        rw [List.append_nil]
        exact hd.refuses hr
      · cases hnil
    · cases mid with
      | nil =>
          cases hmid
          rw [List.append_nil] at hd
          exact hd.refuses hr
      | cons e' mid =>
          cases hmid
          exact h.refusals pre e mid rfl hr

/-! ### The loop -/

/-- What the loop has done: the decisions are as they should be, and the total is that of their costs. -/
structure Kept (size : String → Option ℕ) (tier : Tier) (budget : ℕ) (done : List FeatureInput)
    (l : Ledger) : Prop where
  decided : Budgeted size tier budget done l.decisions
  total : l.used = admittedCost l.decisions

/-- The budget bounds the total, or all that is still wanted fits. -/
def Room (size : String → Option ℕ) (tier : Tier) (budget : ℕ) (l : Ledger) (fs : List FeatureInput) :
    Prop :=
  budget < 2 ^ 64 - 1 ∨ l.used + totalCost size (wanted tier (refused l.decisions) fs) < 2 ^ 64

theorem Room.fits (h : Room size tier budget l (f :: fs)) (hw : Wanted tier (refused l.decisions) f)
    (hsat : saturated 64 (l.used + cost size f) ≤ budget) :
    l.used + cost size f < 2 ^ 64 ∧ l.used + cost size f ≤ budget := by
  unfold Room at h
  rw [wanted, if_pos hw, totalCost_cons] at h
  unfold saturated at hsat
  omega

theorem Room.admitted (h : Room size tier budget l (f :: fs)) (hw : Wanted tier (refused l.decisions) f)
    (reason : String) :
    Room size tier budget ⟨l.used + cost size f, l.decisions ++ [⟨f.name, cost size f, true, reason⟩]⟩
      fs := by
  unfold Room at h ⊢
  rw [wanted, if_pos hw, totalCost_cons, ← Nat.add_assoc] at h
  simpa using h

theorem Room.not_wanted (h : Room size tier budget l (f :: fs))
    (hw : ¬ Wanted tier (refused l.decisions) f) (reason : String) :
    Room size tier budget (l.push ⟨f.name, cost size f, false, reason⟩) fs := by
  unfold Room at h ⊢
  rw [wanted, if_neg hw] at h
  simpa [Ledger.push] using h

/-- **A turn of the loop**: it returns, and there is room for what is still wanted. -/
theorem Kept.exists_planOne (h : Kept size tier budget done l) (hm : Measurable size f)
    (hdeps : DependenciesFirst (done ++ f :: fs)) (hroom : Room size tier budget l (f :: fs)) :
    ∃ l', planOne b size false tier budget l f = some l' ∧ Kept size tier budget (done ++ [f]) l' ∧
      Room size tier budget l' fs := by
  have hc := featureCost_eq_cost_iff (b := b).2 hm
  by_cases hw : Wanted tier (refused l.decisions) f
  · by_cases hsat : saturated 64 (l.used + cost size f) ≤ budget
    · obtain ⟨hlt, hle⟩ := hroom.fits hw hsat
      refine ⟨_, by rw [planOne_of_fits hc hw hsat, Build.result_eq hlt]; rfl, ⟨?_, ?_⟩,
        hroom.admitted hw _⟩
      · refine h.decided.push hdeps rfl rfl ⟨fun _ => ⟨hw, h.total ▸ hle⟩, ?_⟩
        exact fun hr => absurd hr (show reasonOn ≠ reasonOffBudget by decide)
      · simp [h.total]
    · refine ⟨_, planOne_of_not_fits hc hw hsat, ⟨?_, ?_⟩, .inl ?_⟩
      · refine h.decided.push hdeps rfl rfl ⟨fun ha => absurd ha Bool.false_ne_true, fun _ => ?_⟩
        rw [← h.total]
        exact Nat.lt_of_not_le fun hle => hsat (saturated_le.trans hle)
      · simp [Ledger.push, h.total]
      · exact Nat.lt_of_not_le fun hle => hsat (saturated_le_of_le hle)
  · obtain ⟨reason, hreason, hone⟩ := planOne_of_not_wanted (b := b) budget hc hw
    refine ⟨_, hone, ⟨?_, ?_⟩, hroom.not_wanted hw reason⟩
    · exact h.decided.push hdeps rfl rfl
        ⟨fun ha => absurd ha Bool.false_ne_true, fun hr => absurd hr hreason⟩
    · simp [Ledger.push, h.total]

/-- **The decisions of the loop, where no sum overflows.** -/
theorem Kept.exists_foldlM (h : Kept size tier budget done l) (hm : ∀ f ∈ fs, Measurable size f)
    (hdeps : DependenciesFirst (done ++ fs)) (hroom : Room size tier budget l fs) :
    ∃ l', fs.foldlM (planOne b size false tier budget) l = some l' ∧
      Kept size tier budget (done ++ fs) l' := by
  induction fs generalizing done l with
  | nil => exact ⟨l, rfl, by rwa [List.append_nil]⟩
  | cons f fs ih =>
      obtain ⟨l', hone, hkept, hrest⟩ := h.exists_planOne (b := b) (hm f (by simp)) hdeps hroom
      obtain ⟨l'', hfold, hlast⟩ := ih hkept (fun g hg => hm g (by simp [hg])) (by simpa using hdeps)
        hrest
      refine ⟨l'', ?_, by simpa using hlast⟩
      rw [List.foldlM_cons, hone]
      exact hfold

/-! ### What the decisions tell -/

/-- A decision has the cost that is computed. -/
theorem exists_decision {all : Bool} (h : planOne b size all tier budget l f = some l') :
    ∃ d, featureCost b size f = some d.costMib ∧ l'.decisions = l.decisions ++ [d] := by
  cases hc : featureCost b size f with
  | none => simp [planOne, hc] at h
  | some c =>
      cases all with
      | true =>
          rw [planOne_of_all hc] at h
          exact Option.some.inj h ▸ ⟨_, rfl, rfl⟩
      | false =>
          by_cases hw : Wanted tier (refused l.decisions) f
          · by_cases hsat : saturated 64 (l.used + c) ≤ budget
            · rw [planOne_of_fits hc hw hsat, Option.map_eq_some_iff] at h
              obtain ⟨used, -, rfl⟩ := h
              exact ⟨_, rfl, rfl⟩
            · rw [planOne_of_not_fits hc hw hsat] at h
              exact Option.some.inj h ▸ ⟨_, rfl, rfl⟩
          · obtain ⟨reason, -, hone⟩ := planOne_of_not_wanted (b := b) budget hc hw
            rw [hone] at h
            exact Option.some.inj h ▸ ⟨_, rfl, rfl⟩

theorem exists_decisions {all : Bool} (h : fs.foldlM (planOne b size all tier budget) l = some l') :
    ∃ ds, List.Forall₂ (fun f d => featureCost b size f = some d.costMib) fs ds ∧
      l'.decisions = l.decisions ++ ds := by
  induction fs generalizing l with
  | nil =>
      cases h
      exact ⟨[], .nil, (List.append_nil _).symm⟩
  | cons f fs ih =>
      rw [List.foldlM_cons, Option.bind_eq_bind, Option.bind_eq_some_iff] at h
      obtain ⟨l₁, hone, hfold⟩ := h
      obtain ⟨d, hc, hd⟩ := exists_decision hone
      obtain ⟨ds, hcs, hds⟩ := ih hfold
      exact ⟨d :: ds, .cons hc hcs, by rw [hds, hd, List.append_assoc]; rfl⟩

/-- **Decisions with the right costs are about features whose costs have 64 bits.** -/
theorem measurable_of_budgeted {all : Bool}
    (h : fs.foldlM (planOne b size all tier budget) ⟨0, []⟩ = some l') {tier' : Tier} {budget' : ℕ}
    (hb : Budgeted size tier' budget' fs l'.decisions) : ∀ f ∈ fs, Measurable size f := by
  obtain ⟨ds, hcs, hds⟩ := exists_decisions h
  rw [List.nil_append] at hds
  have hboth := hb.inOrder
  rw [hds] at hboth
  clear h hb hds
  induction hcs with
  | nil => simp
  | @cons f d fs ds hc hcs ih =>
      cases hboth with
      | cons hd hrest =>
          rw [List.forall_mem_cons]
          exact ⟨featureCost_eq_cost_iff.1 (hd.2 ▸ hc), ih hrest⟩

/-- The largest budget admits all that is wanted. -/
theorem admittedCost_foldlM (hbudget : 2 ^ 64 - 1 ≤ budget) (hm : ∀ f ∈ fs, Measurable size f)
    (h : fs.foldlM (planOne b size false tier budget) l = some l') :
    admittedCost l'.decisions =
      admittedCost l.decisions + totalCost size (wanted tier (refused l.decisions) fs) := by
  induction fs generalizing l with
  | nil =>
      cases h
      rfl
  | cons f fs ih =>
      rw [List.foldlM_cons, Option.bind_eq_bind, Option.bind_eq_some_iff] at h
      obtain ⟨l₁, hone, hfold⟩ := h
      have hc := featureCost_eq_cost_iff (b := b).2 (hm f (by simp))
      rw [ih (fun g hg => hm g (by simp [hg])) hfold, wanted]
      by_cases hw : Wanted tier (refused l.decisions) f
      · rw [planOne_of_fits hc hw (saturated_le_of_le hbudget), Option.map_eq_some_iff] at hone
        obtain ⟨used, -, rfl⟩ := hone
        rw [if_pos hw, totalCost_cons]
        simp [Nat.add_assoc]
      · obtain ⟨reason, -, hpush⟩ := planOne_of_not_wanted (b := b) budget hc hw
        rw [hpush] at hone
        cases hone
        rw [if_neg hw]
        simp [Ledger.push]

/-! ### A mode that is taken for `"all"` -/

/-- The decision about a feature in `"all"` mode. -/
def allDecision (size : String → Option ℕ) (f : FeatureInput) : FeatureDecision :=
  ⟨f.name, cost size f, f.enabled, if f.enabled then reasonOn else reasonOffConfig⟩

theorem foldlM_all (hm : ∀ f ∈ fs, Measurable size f) :
    fs.foldlM (planOne b size true tier budget) l =
      some ⟨l.used, l.decisions ++ fs.map (allDecision size)⟩ := by
  induction fs generalizing l with
  | nil => simp
  | cons f fs ih =>
      rw [List.foldlM_cons, planOne_of_all (featureCost_eq_cost_iff.2 (hm f (by simp)))]
      refine (ih fun g hg => hm g (by simp [hg])).trans ?_
      simp [Ledger.push, allDecision]

theorem admittedCost_map (size : String → Option ℕ) (fs : List FeatureInput) :
    admittedCost (fs.map (allDecision size)) = totalCost size (fs.filter FeatureInput.enabled) := by
  induction fs with
  | nil => rfl
  | cons f fs ih =>
      unfold admittedCost totalCost at *
      cases he : f.enabled <;> simp_all [allDecision]

theorem mem_zip_map {α β : Type} {g : α → β} {as : List α} {p : α × β} (h : p ∈ as.zip (as.map g)) :
    p.1 ∈ as ∧ p.2 = g p.1 := by
  rw [List.zip_map_right, List.mem_map] at h
  obtain ⟨⟨a, a'⟩, ha, rfl⟩ := h
  refine ⟨(List.of_mem_zip ha).1, ?_⟩
  rw [List.zip_eq_zipWith] at ha
  obtain rfl : a = a' := by
    rw [List.zipWith_self, List.mem_map] at ha
    obtain ⟨x, -, hx⟩ := ha
    exact (Prod.mk.inj hx).1.symm.trans (Prod.mk.inj hx).2
  rfl

theorem mk_mem_zip_map {α β : Type} {g : α → β} {as : List α} {a : α} (h : a ∈ as) :
    (a, g a) ∈ as.zip (as.map g) := by
  rw [List.zip_map_right, List.mem_map]
  refine ⟨(a, a), ?_, rfl⟩
  rw [List.zip_eq_zipWith, List.zipWith_self, List.mem_map]
  exact ⟨a, h, rfl⟩

theorem reason_allDecision (f : FeatureInput) : (allDecision size f).reason ≠ reasonOffBudget := by
  cases he : f.enabled <;> simp only [allDecision, he] <;> decide

/-- **The decisions of `"all"` mode are within the budget exactly where all that is enabled fits.** -/
theorem budgeted_map_iff :
    Budgeted size tier budget fs (fs.map (allDecision size)) ↔ AllFits size tier budget fs := by
  constructor
  · intro h
    refine ⟨admittedCost_map size fs ▸ h.fits, fun f hf he => ?_, fun f hf he g hg hdep => ?_⟩
    · exact h.tiered _ (List.mem_map_of_mem hf) he
    · exact h.dependencies _ (mk_mem_zip_map hf) he _ (List.mem_map_of_mem hg) hdep
  · intro h
    refine ⟨?_, (admittedCost_map size fs).trans_le h.fits, fun d hd ha => ?_, fun p hp ha e he hdep => ?_,
      fun pre d post heq hr => ?_⟩
    · rw [List.forall₂_map_right_iff, List.forall₂_same]
      exact fun f _ => ⟨rfl, rfl⟩
    · obtain ⟨f, hf, rfl⟩ := List.mem_map.1 hd
      exact h.tiered f hf ha
    · obtain ⟨hf, hp⟩ := mem_zip_map hp
      obtain ⟨g, hg, rfl⟩ := List.mem_map.1 he
      rw [hp] at ha
      exact h.dependencies p.1 hf ha g hg hdep
    · obtain ⟨f, -, rfl⟩ := List.mem_map.1 (show d ∈ fs.map (allDecision size) by simp [heq])
      exact absurd hr (reason_allDecision f)

/-! ### The plan -/

/-- The decisions of a plan are those of its loop. -/
theorem exists_plan_iff {inputs : List FeatureInput} {mode : String} {ctx : TierContext}
    {total available reserve : ℕ} {P : List FeatureDecision → Prop} :
    (∃ p, plan b size inputs mode ctx total available reserve = some p ∧ P p.features) ↔
      ∃ l', inputs.foldlM (planOne b size (Text.eqIgnoreAsciiCase mode "all") ctx.tier
        (if Text.eqIgnoreAsciiCase mode "all" then available else available - reserve)) ⟨0, []⟩ = some l' ∧
          P l'.decisions := by
  simp only [plan, Option.bind_eq_bind, Option.pure_def]
  constructor
  · rintro ⟨p, hp, hP⟩
    obtain ⟨l', hl', hp⟩ := Option.bind_eq_some_iff.1 hp
    exact ⟨l', hl', by rwa [← Option.some.inj hp] at hP⟩
  · rintro ⟨l', hl', hP⟩
    rw [hl']
    exact ⟨_, rfl, hP⟩

/-- The voice stack, and the decisions that ride on it. -/
def voiceAndDecision : List FeatureInput :=
  [⟨"voice", true, ["kws.onnx"], 60, none⟩, ⟨"decision", true, [], 40, some "voice"⟩]

/-- The context of a large host. -/
def fullTier : TierContext := ⟨.full, .config, ⟨4, .avx2, false⟩⟩

/-- A feature that does not fit in a hundred MiB. -/
def largeLlm : FeatureInput := ⟨"llm", true, [], 500, none⟩

/-- A feature whose cost does not have 64 bits. -/
def hugeLlm : FeatureInput := ⟨"llm", true, ["llm.gguf"], 2 ^ 64 - 1, none⟩

end Features
