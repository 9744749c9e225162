/-
**The boot-time admission of features.**

`plan` of `crates/streaming/src/feature_gate.rs` decides which features a host starts: it goes through
them in the order of their priority, and admits one while the costs of those it has admitted stay
within the memory that is left over the reserve.  The sizes of the files on disk are an input.

Main definitions:

* `Features.Tier`, with `name` and `includes`;
* `Features.FeatureInput`, `Features.FeatureDecision`, `Features.ResourceProfile`;
* `Features.fileCostMib` — the memory that model files take;
* `Features.planOne`, `Features.plan` — the decision about a feature, and about all of them;
* `Features.cost` — what a feature costs, as a number that has no width.

Main results:

* `Features.featureCost_eq_cost_iff` — **which costs are computed as they are**;
* `Features.planOne_of_not_wanted`, `Features.planOne_of_fits`, `Features.planOne_of_not_fits` — the
  decisions about a feature.
-/

import Mathlib.Algebra.BigOperators.Group.List.Basic
import MibeeEye.FixedWidth
import MibeeEye.Text

set_option relaxedAutoImplicit false
set_option autoImplicit false

namespace Features

open FixedWidth

/-! ### The host -/

/-- `SimdClass`. -/
inductive SimdClass
  | baseline
  | avx2
  | avx512Vnni

/-- `HardwareProfile`. -/
structure HardwareProfile where
  physicalCores : ℕ
  simd : SimdClass
  battery : Bool

/-- `Tier`. -/
inductive Tier
  | minimal
  | basic
  | standard
  | full

/-- The place of a tier in the order of the tiers. -/
def Tier.rank : Tier → ℕ
  | .minimal => 0
  | .basic => 1
  | .standard => 2
  | .full => 3

/-- `Tier::name`. -/
def Tier.name : Tier → String
  | .minimal => "minimal"
  | .basic => "basic"
  | .standard => "standard"
  | .full => "full"

/-- `Tier::includes`. -/
def Tier.includes (tier : Tier) (feature : String) : Bool :=
  if feature ∈ ["ai", "audio_ai"] then true
  else if feature ∈ ["voice", "llm", "tts", "decision"] then decide (Tier.basic.rank ≤ tier.rank)
  else if feature ∈ ["face", "ocr"] then decide (Tier.standard.rank ≤ tier.rank)
  else if feature ∈ ["meeting", "vlm"] then decide (Tier.full.rank ≤ tier.rank)
  else true

/-- `TierSource`. -/
inductive TierSource
  | hardware
  | config

/-- `TierSource::name`. -/
def TierSource.name : TierSource → String
  | .hardware => "hardware"
  | .config => "config"

/-- `TierContext`. -/
structure TierContext where
  tier : Tier
  source : TierSource
  profile : HardwareProfile

/-! ### Features -/

/-- `FeatureInput`. -/
structure FeatureInput where
  name : String
  enabled : Bool
  modelPaths : List String
  overheadMib : ℕ
  dependsOn : Option String

/-- `FeatureDecision`. -/
structure FeatureDecision where
  name : String
  costMib : ℕ
  admitted : Bool
  reason : String

/-- `ResourceProfile`. -/
structure ResourceProfile where
  mode : String
  tier : String
  presetSource : String
  profile : HardwareProfile
  totalMib : ℕ
  availableMib : ℕ
  budgetMib : ℕ
  reserveMib : ℕ
  features : List FeatureDecision

/-- `REASON_ON`. -/
def reasonOn : String := ""

/-- `REASON_OFF_CONFIG`. -/
def reasonOffConfig : String := "off_config"

/-- `REASON_OFF_BUDGET`. -/
def reasonOffBudget : String := "off_budget"

/-- `REASON_DEPENDENCY`. -/
def reasonDependency : String := "dependency"

/-- `REASON_OFF_TIER`. -/
def reasonOffTier : String := "off_tier"

/-! ### Costs -/

variable (b : Build) (size : String → Option ℕ)

/-- `u64::div_ceil`. -/
def divCeil (n d : ℕ) : ℕ := (n + (d - 1)) / d

/-- The bytes of the files that there are. -/
def fileBytes (paths : List String) : ℕ := (paths.filterMap size).sum

/-- `file_cost_mib`. -/
def fileCostMib (paths : List String) : Option ℕ := do
  let bytes ← b.result 64 (fileBytes size paths)
  let mib := divCeil bytes (1024 * 1024)
  let scaled ← b.result 64 (mib * 115)
  return divCeil scaled 100

/-- The cost of a feature, as `plan` computes it. -/
def featureCost (f : FeatureInput) : Option ℕ := do
  let files ← fileCostMib b size f.modelPaths
  b.result 64 (files + f.overheadMib)

/-- The memory that files of so many bytes take. -/
def scaledMib (bytes : ℕ) : ℕ := divCeil (divCeil bytes (1024 * 1024) * 115) 100

/-- **What a feature costs.** -/
def cost (f : FeatureInput) : ℕ := scaledMib (fileBytes size f.modelPaths) + f.overheadMib

/-- A feature whose cost is a number of 64 bits. -/
def Measurable (f : FeatureInput) : Prop :=
  fileBytes size f.modelPaths < 2 ^ 64 ∧ cost size f < 2 ^ 64

instance (f : FeatureInput) : Decidable (Measurable size f) := inferInstanceAs (Decidable (_ ∧ _))

/-! ### Admission -/

/-- What `plan` has so far. -/
structure Ledger where
  used : ℕ
  decisions : List FeatureDecision

/-- A decision is the last one. -/
def Ledger.push (l : Ledger) (d : FeatureDecision) : Ledger := { l with decisions := l.decisions ++ [d] }

/-- There is a decision against the feature. -/
def Ledger.refuses (l : Ledger) (name : String) : Bool :=
  l.decisions.any fun d => d.name == name && !d.admitted

/-- A turn of the loop of `plan`. -/
def planOne (all : Bool) (tier : Tier) (budget : ℕ) (l : Ledger) (f : FeatureInput) : Option Ledger := do
  let c ← featureCost b size f
  if !f.enabled then
    return l.push ⟨f.name, c, false, reasonOffConfig⟩
  else if all then
    return l.push ⟨f.name, c, true, reasonOn⟩
  else if !tier.includes f.name then
    return l.push ⟨f.name, c, false, reasonOffTier⟩
  else if f.dependsOn.any l.refuses then
    return l.push ⟨f.name, c, false, reasonDependency⟩
  else if saturated 64 (l.used + c) ≤ budget then
    let used ← b.result 64 (l.used + c)
    return { l with used := used }.push ⟨f.name, c, true, reasonOn⟩
  else
    return l.push ⟨f.name, c, false, reasonOffBudget⟩

/-- `plan`. -/
def plan (inputs : List FeatureInput) (mode : String) (tier : TierContext)
    (totalMib availableMib reserveMib : ℕ) : Option ResourceProfile := do
  let all := Text.eqIgnoreAsciiCase mode "all"
  let budget := if all then availableMib else availableMib - reserveMib
  let l ← inputs.foldlM (planOne b size all tier.tier budget) ⟨0, []⟩
  return {
    mode := if all then "all" else "auto"
    tier := if all then Tier.full.name else tier.tier.name
    presetSource := tier.source.name
    profile := tier.profile
    totalMib := totalMib
    availableMib := availableMib
    budgetMib := budget
    reserveMib := reserveMib
    features := l.decisions }

variable {b size}

/-! ### What costs are computed as they are -/

theorem divCeil_le_divCeil {m n : ℕ} (d : ℕ) (h : m ≤ n) : divCeil m d ≤ divCeil n d :=
  Nat.div_le_div_right (Nat.add_le_add_right h _)

theorem scaledMib_le_scaledMib {m n : ℕ} (h : m ≤ n) : scaledMib m ≤ scaledMib n :=
  divCeil_le_divCeil _ (Nat.mul_le_mul_right _ (divCeil_le_divCeil _ h))

/-- A number of bytes that wraps round costs less. -/
theorem scaledMib_lt_scaledMib {m n : ℕ} (h : m + 2 ^ 64 ≤ n) : scaledMib m < scaledMib n := by
  have := scaledMib_le_scaledMib h
  unfold scaledMib divCeil at *
  omega

/-- The product of `file_cost_mib` fits. -/
theorem fileCostMib_eq_some_iff {paths : List String} {m : ℕ} : fileCostMib b size paths = some m ↔
    ∃ bytes, b.result 64 (fileBytes size paths) = some bytes ∧ scaledMib bytes = m := by
  unfold fileCostMib
  rw [Option.bind_eq_bind, Option.bind_eq_some_iff]
  refine exists_congr fun bytes => and_congr_right fun h => ?_
  have hlt := Build.lt_of_result h
  have hfit : divCeil bytes (1024 * 1024) * 115 < 2 ^ 64 := by
    unfold divCeil
    omega
  extract_lets mib
  rw [Build.result_eq hfit, Option.bind_some, Option.pure_def, Option.some_inj, scaledMib]

theorem featureCost_eq_some_iff {f : FeatureInput} {c : ℕ} :
    featureCost b size f = some c ↔ ∃ bytes, b.result 64 (fileBytes size f.modelPaths) = some bytes ∧
      b.result 64 (scaledMib bytes + f.overheadMib) = some c := by
  unfold featureCost
  rw [Option.bind_eq_bind, Option.bind_eq_some_iff]
  constructor
  · rintro ⟨m, hm, hc⟩
    obtain ⟨bytes, hbytes, rfl⟩ := fileCostMib_eq_some_iff.1 hm
    exact ⟨bytes, hbytes, hc⟩
  · rintro ⟨bytes, hbytes, hc⟩
    exact ⟨_, fileCostMib_eq_some_iff.2 ⟨bytes, hbytes, rfl⟩, hc⟩

/-- **The costs that are computed as they are.** -/
theorem featureCost_eq_cost_iff {f : FeatureInput} :
    featureCost b size f = some (cost size f) ↔ Measurable size f := by
  rw [featureCost_eq_some_iff]
  constructor
  · rintro ⟨bytes, hbytes, hc⟩
    refine ⟨?_, Build.lt_of_result hc⟩
    by_contra hge
    have hle := Build.le_of_result hc
    have hlt := scaledMib_lt_scaledMib (Build.add_le_of_result hbytes (Nat.le_of_not_lt hge))
    unfold cost at hle
    omega
  · rintro ⟨hbytes, hc⟩
    exact ⟨_, Build.result_eq hbytes, Build.result_eq hc⟩

/-! ### The decisions about a feature -/

/-- The names with a decision against them. -/
def refused (ds : List FeatureDecision) : List String :=
  (ds.filter fun d => !d.admitted).map FeatureDecision.name

/-- A feature that is wanted where the decisions so far are against some names. -/
def Wanted (tier : Tier) (off : List String) (f : FeatureInput) : Prop :=
  f.enabled = true ∧ tier.includes f.name = true ∧ ∀ dep ∈ f.dependsOn, dep ∉ off

instance (tier : Tier) (off : List String) (f : FeatureInput) : Decidable (Wanted tier off f) :=
  inferInstanceAs (Decidable (_ ∧ _ ∧ _))

@[simp] theorem refused_append (ds : List FeatureDecision) (d : FeatureDecision) :
    refused (ds ++ [d]) = refused ds ++ if d.admitted then [] else [d.name] := by
  cases h : d.admitted <;> simp [refused, h]

theorem mem_refused_iff {ds : List FeatureDecision} {name : String} :
    name ∈ refused ds ↔ ∃ d ∈ ds, d.name = name ∧ d.admitted = false := by
  simp only [refused, List.mem_map, List.mem_filter, Bool.not_eq_true']
  exact ⟨fun ⟨d, ⟨hd, ha⟩, hn⟩ => ⟨d, hd, hn, ha⟩, fun ⟨d, hd, hn, ha⟩ => ⟨d, ⟨hd, ha⟩, hn⟩⟩

theorem Ledger.refuses_iff {l : Ledger} {name : String} :
    l.refuses name = true ↔ name ∈ refused l.decisions := by
  simp only [Ledger.refuses, List.any_eq_true, Bool.and_eq_true, beq_iff_eq, Bool.not_eq_true',
    mem_refused_iff]

variable {tier : Tier} {budget c : ℕ} {l : Ledger} {f : FeatureInput}

theorem any_refuses_iff :
    f.dependsOn.any l.refuses = false ↔ ∀ dep ∈ f.dependsOn, dep ∉ refused l.decisions := by
  cases f.dependsOn with
  | none => simp
  | some dep => simp [← Ledger.refuses_iff]

/-- In `"all"` mode what is enabled is admitted. -/
theorem planOne_of_all (hc : featureCost b size f = some c) :
    planOne b size true tier budget l f =
      some (l.push ⟨f.name, c, f.enabled, if f.enabled then reasonOn else reasonOffConfig⟩) := by
  cases he : f.enabled <;> simp [planOne, hc, he]

/-- A feature that is not wanted is refused, and not for its cost. -/
theorem planOne_of_not_wanted (budget : ℕ) (hc : featureCost b size f = some c)
    (hw : ¬ Wanted tier (refused l.decisions) f) :
    ∃ reason, reason ≠ reasonOffBudget ∧
      planOne b size false tier budget l f = some (l.push ⟨f.name, c, false, reason⟩) := by
  cases he : f.enabled with
  | false => exact ⟨reasonOffConfig, by decide, by simp [planOne, hc, he]⟩
  | true =>
      cases ht : tier.includes f.name with
      | false => exact ⟨reasonOffTier, by decide, by simp [planOne, hc, he, ht]⟩
      | true =>
          have hdep : f.dependsOn.any l.refuses = true := by
            rw [← Bool.not_eq_false, any_refuses_iff]
            exact fun hnone => hw ⟨he, ht, hnone⟩
          exact ⟨reasonDependency, by decide, by simp [planOne, hc, he, ht, hdep]⟩

theorem Wanted.any_refuses (h : Wanted tier (refused l.decisions) f) :
    f.dependsOn.any l.refuses = false := any_refuses_iff.2 h.2.2

/-- A feature that is wanted is admitted where its cost fits. -/
theorem planOne_of_fits (hc : featureCost b size f = some c) (hw : Wanted tier (refused l.decisions) f)
    (hfit : saturated 64 (l.used + c) ≤ budget) :
    planOne b size false tier budget l f = (b.result 64 (l.used + c)).map fun used =>
      ⟨used, l.decisions ++ [⟨f.name, c, true, reasonOn⟩]⟩ := by
  cases hused : b.result 64 (l.used + c) <;>
    simp [planOne, hc, hw.1, hw.2.1, hw.any_refuses, hfit, hused, Ledger.push]

/-- A feature that is wanted is refused where its cost does not fit. -/
theorem planOne_of_not_fits (hc : featureCost b size f = some c)
    (hw : Wanted tier (refused l.decisions) f) (hfit : ¬ saturated 64 (l.used + c) ≤ budget) :
    planOne b size false tier budget l f = some (l.push ⟨f.name, c, false, reasonOffBudget⟩) := by
  simp [planOne, hc, hw.1, hw.2.1, hw.any_refuses, hfit]

end Features
