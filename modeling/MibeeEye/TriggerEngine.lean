/-
**Plugins and their triggers.**

A plugin declares rules, and a rule starts its actions when something happens: an alarm, the device is
armed or disarmed, a minute begins, or it is loud.  A rule that has started does not start again before
its window is over, and what it would have done is reported as skipped (`src/runtime/plugins.rs`).

The bus and the clock each dispatch their own triggers.  A dispatch gives up the processor while an action
runs, so the rules that one dispatch looks at and those of another come in any order.

Main definitions:

* `Plugin.ruleFires`, `Plugin.triggerFromEvent` — what a rule asks of a trigger;
* `Plugin.Engine` — the manifests that were loaded;
* `Plugin.Event`, `Plugin.step` — the dispatches, rule by rule and action by action;
* `Plugin.Starts` — a rule starts its actions.

Main results:

* `Plugin.starts_iff` — **when a rule starts**, in any order of the dispatches;
* `Plugin.disarm_starts_iff` — **a rule starts for a disarm only if it has never started before**: the
  event of a disarm carries no time, and counts as the first moment of 1970;
* `Plugin.allowed_of_starts` — **a rule starts only for a source that its manifest declares**.
-/

import MibeeEye.WaitingTimes
import MibeeEye.Text

set_option relaxedAutoImplicit false
set_option autoImplicit false

namespace Plugin

/-! ### Manifests -/

/-- `TriggerSource` -/
inductive TriggerSource
  | alarm
  | awayState
  | schedule
  | audioLevel
  deriving DecidableEq, Repr

/-- The name that an event allowlist has for a source. -/
def TriggerSource.name : TriggerSource → String
  | .alarm => "alarm"
  | .awayState => "away_state"
  | .schedule => "schedule"
  | .audioLevel => "audio_level"

/-- `Action`; `A` is the type of the arguments of a tool. -/
structure Action (A : Type) where
  tool : Option String := none
  args : A
  speak : Option String := none
  notify : Option String := none
  deriving DecidableEq, Repr

/-- `TriggerRule` -/
structure TriggerRule (A : Type) where
  on : TriggerSource
  when : String := ""
  cooldownSecs : ℕ := 0
  run : List (Action A)
  deriving DecidableEq, Repr

/-- `PluginManifest`, with the events of its permissions. -/
structure PluginManifest (A : Type) where
  triggers : List (TriggerRule A) := []
  events : List String := []
  deriving DecidableEq, Repr

variable {A F : Type}

/-- `PluginManifest::consistent` -/
def PluginManifest.consistent (m : PluginManifest A) : Bool :=
  m.triggers.all fun r => m.events.any (· == r.on.name)

/-! ### Triggers -/

/-- `Trigger` -/
structure Trigger where
  source : TriggerSource
  discriminator : String
  atMs : ℕ
  deriving DecidableEq, Repr

/-- The events of the bus that are triggers; the others are `other`.  A level comes with its text. -/
inductive CameraEvent
  | alarm (source : String) (timestampMs : ℕ)
  | awayState (active : Bool) (sinceMs : Option ℕ)
  | audioLevel (level : String) (timestampMs : ℕ)
  | other
  deriving DecidableEq, Repr

/-- `trigger_from_event` -/
def triggerFromEvent : CameraEvent → Option Trigger
  | .alarm source timestampMs => some ⟨.alarm, source, timestampMs⟩
  | .awayState active sinceMs =>
      some ⟨.awayState, if active then "armed" else "disarmed", sinceMs.getD 0⟩
  | .audioLevel level timestampMs => some ⟨.audioLevel, level, timestampMs⟩
  | .other => none

/-- What `set_away` sends when the device is armed at a time, or disarmed
(`crates/web/src/away.rs`). -/
def CameraEvent.disarmed : CameraEvent := .awayState false none

/-- Floats of 32 bits: how one is read, and how two are compared. -/
structure Levels (F : Type) where
  parse : List Char → Option F
  ge : F → F → Bool

/-- `rule_fires` -/
def ruleFires (L : Levels F) (rule : TriggerRule A) (trigger : Trigger) : Bool :=
  if rule.on ≠ trigger.source then false
  else
    match rule.on with
    | .audioLevel =>
        match L.parse (Text.trim rule.when.toList) with
        | none => false
        | some threshold =>
            match L.parse trigger.discriminator.toList with
            | none => false
            | some level => L.ge level threshold
    | .schedule => rule.when ≠ "" && rule.when == trigger.discriminator
    | .alarm | .awayState => rule.when == "" || rule.when == trigger.discriminator

/-- `DEFAULT_COOLDOWN_SECS` -/
def defaultCooldownSecs : ℕ := 60

/-- The window of `cooldown_open`, a number of 64 bits. -/
def windowMs (cooldownSecs : ℕ) : ℕ :=
  (if cooldownSecs = 0 then defaultCooldownSecs else cooldownSecs) * 1000 % 2 ^ 64

/-! ### The engine -/

/-- A rule is known by its plugin and its place. -/
abbrev Key := String × ℕ

/-- `TriggerEngine`, as far as the manifests go: they are consistent. -/
structure Engine (A : Type) where
  plugins : List (String × PluginManifest A)
  consistent : ∀ p ∈ plugins, p.2.consistent = true

/-- `TriggerEngine::new` -/
def Engine.new (plugins : List (String × PluginManifest A)) : Engine A where
  plugins := plugins.filter fun p => p.2.consistent
  consistent := fun _ hp => (List.mem_filter.1 hp).2

/-- The rules of the engine, in the order in which a dispatch goes through them. -/
def Engine.rules (engine : Engine A) : List (Key × TriggerRule A) :=
  engine.plugins.flatMap fun p => p.2.triggers.zipIdx.map fun r => ((p.1, r.2), r.1)

/-- `InvocationRecord` -/
structure InvocationRecord where
  plugin : String
  rule : ℕ
  action : String
  outcome : String
  timestampMs : ℕ
  deriving DecidableEq, Repr

/-- What comes of an action: of the call of its tool, and of its utterance, if there is a voice. -/
structure Effects (A : Type) where
  call : String → A → Except String Unit
  voice : Option (String → Except String Unit)

/-- The outcome that is reported of a call. -/
def outcomeText : Except String Unit → String
  | .ok () => "ok"
  | .error e => "error:" ++ e

/-- `run_action` -/
def runAction (effects : Effects A) (action : Action A) : String × String :=
  match action.tool, action.speak, action.notify with
  | some tool, _, _ => (tool, outcomeText (effects.call tool action.args))
  | none, some text, _ =>
      match effects.voice with
      | none => ("speak", "skipped:tts-inactive")
      | some speak => ("speak", outcomeText (speak text))
  | none, none, some _ => ("notify", "ok")
  | none, none, none => ("empty", "skipped:no-action")

/-- A call of `dispatch`: its trigger, the rules that it has yet to look at, and the actions of the rule
that it is at. -/
structure Dispatch (A : Type) where
  trigger : Trigger
  pending : List (Key × TriggerRule A)
  current : Key := ("", 0)
  actions : List (Action A) := []

/-- The engine's table of cooldowns, the dispatches, and what was reported. -/
structure Site (A : Type) where
  lastFiredMs : Key → Option ℕ := fun _ => none
  tasks : ℕ → Option (Dispatch A) := fun _ => none
  records : List InvocationRecord := []

/-- What a dispatch does from one await point to the next. -/
inductive Event (A : Type)
  /-- Dispatch `n` begins. -/
  | begin (n : ℕ) (trigger : Trigger)
  /-- Dispatch `n` looks at its next rule. -/
  | check (n : ℕ)
  /-- Dispatch `n` runs its next action. -/
  | act (n : ℕ) (effects : Effects A)

/-- What dispatch `n` asks the table of cooldowns: for its next rule, if that fires. -/
@[grind =] def asks (L : Levels F) (s : Site A) : Event A → Option (Cooldown.Ask Key)
  | .check n =>
      match s.tasks n with
      | some ⟨trigger, (key, rule) :: _, _, []⟩ =>
          if ruleFires L rule trigger then some ⟨key, trigger.atMs, windowMs rule.cooldownSecs⟩ else none
      | _ => none
  | .begin _ _ | .act _ _ => none

/-- One step; the check is `cooldown_open`. -/
@[grind =] def step (L : Levels F) (engine : Engine A) (s : Site A) : Event A → Option (Site A)
  | .begin n trigger =>
      match s.tasks n with
      | some _ => none
      | none => some { s with tasks := Function.update s.tasks n (some ⟨trigger, engine.rules, ("", 0), []⟩) }
  | .check n =>
      match s.tasks n with
      | some ⟨trigger, (key, rule) :: pending, _, []⟩ =>
          if ruleFires L rule trigger then
            let (isOpen, table) :=
              Cooldown.gate s.lastFiredMs ⟨key, trigger.atMs, windowMs rule.cooldownSecs⟩
            if isOpen then some
              { s with
                lastFiredMs := table
                tasks := Function.update s.tasks n (some ⟨trigger, pending, key, rule.run⟩) }
            else some
              { lastFiredMs := table
                tasks := Function.update s.tasks n (some ⟨trigger, pending, key, []⟩)
                records := s.records ++ [⟨key.1, key.2, "", "skipped:cooldown", trigger.atMs⟩] }
          else some
            { s with tasks := Function.update s.tasks n (some ⟨trigger, pending, key, []⟩) }
      | _ => none
  | .act n effects =>
      match s.tasks n with
      | some ⟨trigger, pending, key, action :: actions⟩ =>
          let (name, outcome) := runAction effects action
          some
            { s with
              tasks := Function.update s.tasks n (some ⟨trigger, pending, key, actions⟩)
              records := s.records ++ [⟨key.1, key.2, name, outcome, trigger.atMs⟩] }
      | _ => none

/-! ### When a rule starts -/

variable {L : Levels F} {engine : Engine A} {s t : Site A} {e : Event A} {es : List (Event A)}
  {key : Key} {n : ℕ} {rule : TriggerRule A}

/-- Dispatch `n` is to look at this rule. -/
def IsNext (s : Site A) (n : ℕ) (trigger : Trigger) (key : Key) (rule : TriggerRule A) : Prop :=
  ∃ pending current, s.tasks n = some ⟨trigger, (key, rule) :: pending, current, []⟩

/-- There is one rule that is next. -/
theorem IsNext.unique {trigger trigger' : Trigger} {rule' : TriggerRule A}
    (h : IsNext s n trigger key rule) (h' : IsNext s n trigger' key rule') :
    trigger = trigger' ∧ rule = rule' := by
  obtain ⟨pending, current, h⟩ := h
  obtain ⟨pending', current', h'⟩ := h'
  rw [h] at h'
  cases h'
  exact ⟨rfl, rfl⟩

variable (L) in
/-- A rule starts its actions, for a trigger of this time. -/
def StartsFor (key : Key) (atMs : ℕ) (s : Site A) : Event A → Prop
  | .check n => ∃ trigger rule, IsNext s n trigger key rule ∧ trigger.atMs = atMs ∧
      ruleFires L rule trigger = true ∧
      Cooldown.isOver (s.lastFiredMs key) trigger.atMs (windowMs rule.cooldownSecs) = true
  | .begin _ _ | .act _ _ => False

variable (L) in
/-- A rule starts its actions. -/
def Starts (key : Key) (s : Site A) (e : Event A) : Prop := ∃ atMs, StartsFor L key atMs s e

/-- The rule that is next starts if it fires and its window is over. -/
theorem starts_check {trigger : Trigger} (hnext : IsNext s n trigger key rule) :
    Starts L key s (.check n) ↔ ruleFires L rule trigger = true ∧
      Cooldown.isOver (s.lastFiredMs key) trigger.atMs (windowMs rule.cooldownSecs) = true := by
  constructor
  · rintro ⟨atMs, trigger', rule', hnext', rfl, hfires, hover⟩
    obtain ⟨rfl, rfl⟩ := hnext.unique hnext'
    exact ⟨hfires, hover⟩
  · rintro ⟨hfires, hover⟩
    exact ⟨trigger.atMs, trigger, rule, hnext, rfl, hfires, hover⟩

/-- What is asked for a rule. -/
theorem asks_check {trigger : Trigger} (h : IsNext s n trigger key rule) :
    asks L s (.check n) =
      if ruleFires L rule trigger then some ⟨key, trigger.atMs, windowMs rule.cooldownSecs⟩ else none := by
  obtain ⟨pending, current, htask⟩ := h
  simp only [asks, htask]

/-- Only a check asks. -/
theorem exists_isNext_of_asks {ask : Cooldown.Ask Key} (h : asks L s e = some ask) :
    ∃ n trigger key rule, e = .check n ∧ IsNext s n trigger key rule := by
  cases e with
  | begin n trigger => cases h
  | act n effects => cases h
  | check n =>
      rw [asks] at h
      split at h
      · rename_i trigger key rule pending current htask
        exact ⟨n, trigger, key, rule, rfl, pending, current, htask⟩
      · cases h

/-- A rule starts when the table lets it through. -/
theorem startsFor_eq : StartsFor L (A := A) key n =
    Cooldown.Passes (fun s => s.lastFiredMs) (asks L) key n := by
  funext s e
  refine propext ?_
  constructor
  · intro h
    cases e with
    | begin m trigger => cases h
    | act m effects => cases h
    | check m =>
        obtain ⟨trigger, rule, hnext, rfl, hfires, hover⟩ := h
        refine ⟨_, (asks_check hnext).trans (if_pos hfires), rfl, rfl, ?_⟩
        rw [Cooldown.gate_fst]
        exact hover
  · rintro ⟨ask, hask, rfl, rfl, hgate⟩
    obtain ⟨m, trigger, key, rule, rfl, hnext⟩ := exists_isNext_of_asks hask
    rw [asks_check hnext] at hask
    split at hask
    · rename_i hfires
      cases hask
      rw [Cooldown.gate_fst] at hgate
      exact ⟨trigger, rule, hnext, rfl, hfires, hgate⟩
    · cases hask

theorem starts_eq : Starts L (A := A) key =
    Cooldown.PassesAt (fun s => s.lastFiredMs) (asks L) key := by
  funext s e
  simp only [Starts, startsFor_eq, Cooldown.PassesAt]

/-- The dispatches use the table of cooldowns as a gate. -/
theorem uses : Cooldown.Uses (step L engine) (fun s => s.lastFiredMs) (asks L) where
  last_step := by
    intro s e t h
    cases e with
    | begin n trigger =>
        rw [step] at h
        split at h
        · cases h
        · cases h
          rfl
    | check n =>
        rw [step] at h
        split at h
        · rename_i trigger key rule pending current htask
          have hasks := asks_check (L := L) ⟨pending, current, htask⟩
          rw [hasks]
          split at h
          · rename_i hfires
            rw [if_pos hfires, Option.map_some, Option.getD_some]
            split at h
            rename_i isOpen table hgate
            rw [hgate]
            split at h <;> cases h <;> rfl
          · rename_i hfires
            cases h
            rw [if_neg hfires]
            rfl
        · cases h
    | act n effects =>
        rw [step] at h
        split at h
        · cases h
          rfl
        · cases h

/-- **When a rule starts**, in any order of the dispatches: it fires, and its window is over since it started
last. -/
theorem starts_iff (L : Levels F) (engine : Engine A) {es : List (Event A)} {s : Site A}
    (h : Machine.exec (step L engine) {} es = some s) {n : ℕ} {trigger : Trigger} {key : Key}
    {rule : TriggerRule A} (hnext : IsNext s n trigger key rule) :
    Starts L key s (.check n) ↔ ruleFires L rule trigger = true ∧
      ∀ last, Machine.Since (step L engine) (StartsFor L key last) (Starts L key) {} es →
        windowMs rule.cooldownSecs ≤ trigger.atMs - last := by
  have huses : Cooldown.Uses (step L engine) (fun s => s.lastFiredMs) (asks L) := uses
  have hlast := fun last => huses.last_iff (k := key) (n := last) rfl h
  rw [starts_check hnext, Cooldown.isOver_iff]
  simp only [hlast, startsFor_eq, starts_eq]

/-- Levels that are numbers of one digit. -/
def digits : Levels ℕ where
  parse := fun s => match s with
    | [c] => if c.isDigit then some (c.toNat - '0'.toNat) else none
    | _ => none
  ge a b := decide (b ≤ a)

/-- A plugin that speaks when there is an alarm, and when the device is disarmed. -/
def speaker : Engine Unit :=
  Engine.new [("p", ⟨[⟨.alarm, "", 0, [⟨none, (), some "alarm", none⟩]⟩,
    ⟨.awayState, "disarmed", 0, [⟨none, (), some "welcome", none⟩]⟩], ["alarm", "away_state"]⟩)]

/-- Two alarms; the dispatch of the first is at its action. -/
def twoAlarms : List (Event Unit) :=
  [.begin 0 ⟨.alarm, "ai", 5000⟩, .check 0, .begin 1 ⟨.alarm, "zone", 65000⟩]

/-- The second alarm comes when the window is just over. -/
theorem starts_twoAlarms : ∃ s, Machine.exec (step digits speaker) {} twoAlarms = some s ∧
    Starts digits ("p", 0) s (.check 1) ∧
    ∀ last, Machine.Since (step digits speaker) (StartsFor digits ("p", 0) last) (Starts digits ("p", 0))
      {} twoAlarms → 60000 ≤ 65000 - last := by
  refine ⟨_, rfl, ⟨65000, ⟨.alarm, "zone", 65000⟩, _, ⟨_, _, rfl⟩, rfl, rfl, rfl⟩, ?_⟩
  exact ((@starts_iff Unit ℕ digits speaker twoAlarms _ rfl 1 ⟨.alarm, "zone", 65000⟩ _ _ ⟨_, _, rfl⟩).1
    ⟨65000, ⟨.alarm, "zone", 65000⟩, _, ⟨_, _, rfl⟩, rfl, rfl, rfl⟩).2

/-- **A rule starts for a disarm only if it has never started before.** -/
theorem disarm_starts_iff (L : Levels F) (engine : Engine A) {es : List (Event A)} {s : Site A}
    (h : Machine.exec (step L engine) {} es = some s) {n : ℕ} {trigger : Trigger} {key : Key}
    {rule : TriggerRule A} (hnext : IsNext s n trigger key rule)
    (htrigger : triggerFromEvent .disarmed = some trigger)
    (hwindow : rule.cooldownSecs * 1000 < 2 ^ 64) :
    Starts L key s (.check n) ↔ ruleFires L rule trigger = true ∧
      ∀ u e, Machine.Occurs (step L engine) {} es u e → ¬ Starts L key u e := by
  have huses : Cooldown.Uses (step L engine) (fun s => s.lastFiredMs) (asks L) := uses
  have hnone := huses.last_eq_none_iff (k := key) rfl h
  have hpositive : 0 < windowMs rule.cooldownSecs := by
    rw [windowMs, defaultCooldownSecs]
    split
    · decide
    · rw [Nat.mod_eq_of_lt hwindow]
      omega
  have hzero : trigger.atMs = 0 := by
    cases htrigger
    rfl
  have hover : Cooldown.isOver (s.lastFiredMs key) 0 (windowMs rule.cooldownSecs) = true ↔
      s.lastFiredMs key = none := by
    cases hlast : s.lastFiredMs key with
    | none => simp
    | some last =>
        rw [Cooldown.isOver_some, Nat.zero_sub, decide_eq_true_eq]
        simpa using Nat.ne_of_gt hpositive
  rw [starts_check hnext, hzero, hover, hnone, starts_eq]

/-- A disarm, behind which the rule for alarms was looked at. -/
def oneDisarm : List (Event Unit) := [.begin 0 ⟨.awayState, "disarmed", 0⟩, .check 0]

/-- The first disarm is greeted. -/
theorem starts_oneDisarm : ∃ s, Machine.exec (step digits speaker) {} oneDisarm = some s ∧
    Starts digits ("p", 1) s (.check 0) := by
  refine ⟨_, rfl, ?_⟩
  refine (@disarm_starts_iff Unit ℕ digits speaker oneDisarm _ rfl 0 ⟨.awayState, "disarmed", 0⟩ _ _
    ⟨_, _, rfl⟩ rfl (by decide)).2 ⟨rfl, ?_⟩
  intro u e hoccurs
  rcases Machine.occurs_cons hoccurs with ⟨rfl, rfl⟩ | ⟨t, ht, hoccurs⟩
  · exact fun ⟨_, h⟩ => h
  · cases ht
    obtain ⟨rfl, rfl⟩ := Machine.occurs_singleton hoccurs
    rintro ⟨_, _, _, ⟨_, _, hnext⟩, -⟩
    cases hnext

/-! ### What a rule starts for -/

/-- The rules of the engine stand in its manifests. -/
theorem mem_rules : (key, rule) ∈ engine.rules ↔
    ∃ m, (key.1, m) ∈ engine.plugins ∧ m.triggers[key.2]? = some rule := by
  obtain ⟨plugin, i⟩ := key
  simp only [Engine.rules, List.mem_flatMap, List.mem_map, Prod.mk.injEq, Prod.exists,
    List.mem_zipIdx_iff_getElem?]
  constructor
  · rintro ⟨name, m, hm, r, j, hr, ⟨rfl, rfl⟩, rfl⟩
    exact ⟨m, hm, hr⟩
  · rintro ⟨m, hm, hr⟩
    exact ⟨plugin, m, hm, rule, i, hr, ⟨rfl, rfl⟩, rfl⟩

/-- The rules that the dispatches have yet to look at are those of the engine. -/
def Known (engine : Engine A) (s : Site A) : Prop :=
  ∀ n d, s.tasks n = some d → ∀ r ∈ d.pending, r ∈ engine.rules

theorem known_update (hs : Known engine s) {d : Dispatch A} (hd : ∀ r ∈ d.pending, r ∈ engine.rules)
    {table : Key → Option ℕ} {records : List InvocationRecord} :
    Known engine ⟨table, Function.update s.tasks n (some d), records⟩ := by
  intro m d' hd' r hr
  have hd' : Function.update s.tasks n (some d) m = some d' := hd'
  by_cases hm : m = n
  · subst hm
    rw [Function.update_self] at hd'
    cases hd'
    exact hd r hr
  · rw [Function.update_of_ne hm] at hd'
    exact hs m d' hd' r hr

theorem known_step (hs : Known engine s) (h : step L engine s e = some t) : Known engine t := by
  cases e with
  | begin n trigger =>
      rw [step] at h
      split at h
      · cases h
      · cases h
        exact known_update hs fun _ hr => hr
  | check n =>
      rw [step] at h
      split at h
      · rename_i trigger key rule pending current htask
        have hpending : ∀ r ∈ pending, r ∈ engine.rules :=
          fun r hr => hs n _ htask r (List.mem_cons_of_mem _ hr)
        split at h
        · split at h
          split at h <;> cases h <;> exact known_update hs hpending
        · cases h
          exact known_update hs hpending
      · cases h
  | act n effects =>
      rw [step] at h
      split at h
      · rename_i trigger pending key action actions htask
        cases h
        have hpending : ∀ r ∈ pending, r ∈ engine.rules := hs n _ htask
        exact known_update hs hpending
      · cases h

/-- **A rule starts only for a source that its manifest declares**, whatever was loaded. -/
theorem allowed_of_starts (L : Levels F) (plugins : List (String × PluginManifest A))
    {es : List (Event A)} {s : Site A} (h : Machine.exec (step L (.new plugins)) {} es = some s) {n : ℕ}
    {trigger : Trigger} {key : Key} {rule : TriggerRule A} (hnext : IsNext s n trigger key rule)
    (hstarts : Starts L key s (.check n)) :
    ∃ m, (key.1, m) ∈ plugins ∧ m.triggers[key.2]? = some rule ∧ trigger.source.name ∈ m.events := by
  have hknown : Known (.new plugins) s :=
    Machine.exec_invariant (P := fun _ => True) (fun _ _ _ _ hs h => known_step hs h)
      (fun _ _ => trivial) (fun _ _ hd => by cases hd) h
  have hfires := ((starts_check hnext).1 hstarts).1
  obtain ⟨pending, current, htask⟩ := hnext
  obtain ⟨m, hm, hrule⟩ := mem_rules.1 (hknown n _ htask (key, rule) List.mem_cons_self)
  have hsource : rule.on = trigger.source := by
    by_contra hother
    rw [ruleFires, if_pos hother] at hfires
    cases hfires
  have hdeclared := List.all_eq_true.1 ((Engine.new plugins).consistent _ hm) rule
    (List.mem_of_getElem? hrule)
  obtain ⟨event, hevent, hname⟩ := List.any_eq_true.1 hdeclared
  refine ⟨m, (List.mem_filter.1 hm).1, hrule, ?_⟩
  rw [← hsource, ← beq_iff_eq.1 hname]
  exact hevent

/-- The rule for disarms is one of a plugin that may know of them. -/
theorem allowed_oneDisarm : ∃ s, Machine.exec (step digits speaker) {} oneDisarm = some s ∧
    ∃ m, ("p", m) ∈ speaker.plugins ∧ "away_state" ∈ m.events := by
  refine ⟨_, rfl, ?_⟩
  obtain ⟨m, hm, -, hevent⟩ := @allowed_of_starts Unit ℕ digits speaker.plugins oneDisarm _ rfl 0
    ⟨.awayState, "disarmed", 0⟩ ("p", 1) _ ⟨_, _, rfl⟩
    ⟨0, ⟨.awayState, "disarmed", 0⟩, _, ⟨_, _, rfl⟩, rfl, rfl, rfl⟩
  exact ⟨m, hm, hevent⟩

end Plugin
