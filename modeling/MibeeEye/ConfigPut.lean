/-
**`PUT /api/config`.**

`put_config` of `crates/web/src/routes/config_api.rs` takes the sections of a document one after
another.  Each section is checked, then its rows or blobs are written one by one, then it is applied to
what runs; only then is the next section looked at.  The handler returns at the first thing that is
wrong, be it a value it turns away or a database operation that fails.  What it has written by then
stays written.

Main definitions:

* `Config.Device` — the stored settings and blobs, and what they are applied to;
* `Config.putConfig` — the handler;
* `Config.landedRows`, `Config.landedBlobs` — what is written ahead of the point of return;
* `Config.Repeats` — what is written by then is what is stored already;
* `Config.run` — a sequence of requests.

Main results:

* `Config.putConfig_eq_self_iff` — **a rejected request changes nothing exactly when all it wrote ahead
  of the rejection was there already**;
* `Config.emitted_run` — **only validated scene rows reach the store** as long as no settings section
  carries another row under a key of the scene.
-/

import MibeeEye.ConfigProtocols
import MibeeEye.KeyedWrites

set_option relaxedAutoImplicit false
set_option autoImplicit false

namespace Config

open Json (Value Number Floats)

variable {F G : Type}

/-! ### The device -/

/-- `AiTuning`: the knobs shared with the detection workers. -/
structure Tuning where
  intervalMs : ℕ
  thresholdMille : ℕ
  one_le : 1 ≤ intervalMs
deriving DecidableEq

/-- `AiTuning::set`. -/
def Tuning.set (fl : Floats F G) (intervalMs : ℕ) (threshold : G) : Tuning where
  intervalMs := max intervalMs 1
  thresholdMille := fl.toMille threshold
  one_le := le_max_right intervalMs 1

/-- `ToolsConfig`. -/
structure ToolsConfig where
  weatherEnabled : Bool
  weatherCity : String
  timeoutSecs : ℕ
deriving DecidableEq

/-- `AwaySettings`. -/
structure AwaySettings where
  voiceControl : Bool
  summaryOnDisarm : Bool
  deterrence : Bool
  deterrenceText : String
  reaskText : String
  scheduleArm : String
  scheduleDisarm : String
  scheduleWeekdaysOnly : Bool
  pushUrl : String
  audioLink : Bool
deriving DecidableEq

/-- `SceneHandles`: what the scene section is applied to. -/
structure SceneHandles where
  followUpWindowMs : ℕ
  tools : ToolsConfig
  away : AwaySettings
deriving DecidableEq

/-- The servers that are started and stopped with the configuration. -/
inductive Server where
  | onvif
  | gb28181
deriving DecidableEq

/-- The stored settings and blobs, and what they are applied to. -/
@[ext] structure Device (F : Type) where
  settings : String → Option String
  protocols : String → Option (Value F)
  tuning : Tuning
  scene : SceneHandles
  running : Server → Bool

/-- What happens around a request: which of its database operations fail, counted from 0, and which
start of a server succeeds, by the number of the read of its blob.  A stored blob that is no JSON counts
as a failure of the operation that reads it. -/
structure Env where
  fails : ℕ → Bool
  starts : ℕ → Bool

/-- How the handler ends. -/
inductive Reply where
  | ok (applied : String)
  | badRequest (msg : String)
  | internal (msg : String)
  | panicked
deriving DecidableEq

/-- The status is a 4xx or a 5xx. -/
def Reply.rejected : Reply → Bool
  | .badRequest _ => true
  | .internal _ => true
  | _ => false

/-! ### The settings section -/

/-- The check of the two hot knobs: the values to apply, or what is wrong. -/
def aiKnobs (P : Platform F G) :
    List (String × String) → Option ℕ × Option G → Except Reply (Option ℕ × Option G)
  | [], knobs => .ok knobs
  | (key, value) :: pairs, knobs =>
    if key = "ai.interval_ms" then
      match (Text.parseUnsigned 10 (2 ^ 64) value.toList).filter (1 ≤ ·) with
      | some v => aiKnobs P pairs (some v, knobs.2)
      | none => .error (.badRequest "ai.interval_ms must be an integer >= 1 (milliseconds)")
    else if key = "ai.confidence_threshold" then
      match (P.parse value).filter (P.inRange 0 1) with
      | some v => aiKnobs P pairs (knobs.1, some (P.toF32 v))
      | none => .error (.badRequest "ai.confidence_threshold must be a number in 0.0..=1.0")
    else aiKnobs P pairs knobs

/-- What the settings section asks for: the rows to write and the knobs to apply. -/
def settingsPlan (P : Platform F G) (body : Value F) :
    Except Reply (List (String × String) × (Option ℕ × Option G)) :=
  match body.get "settings" with
  | none => .ok ([], none, none)
  | some (.object fields) => do
    let pairs := flattenToDotted P.toFloats "" (.object fields)
    let knobs ← aiKnobs P pairs (none, none)
    return (pairs, knobs)
  | some _ => .error (.badRequest "settings must be an object")

/-- The loop that writes rows: the table at the end, and whether every write succeeded. -/
def setSettings (fails : ℕ → Bool) :
    ℕ → List (String × String) → (String → Option String) → (String → Option String) × Bool
  | _, [], table => (table, true)
  | n, (key, value) :: rows, table =>
    if fails n then (table, false)
    else setSettings fails (n + 1) rows (Function.update table key (some value))

/-- The knobs after the section; one that is not given is set to what it is. -/
def applyKnobs (fl : Floats F G) (t : Tuning) : Option ℕ × Option G → Tuning
  | (none, none) => t
  | (interval, threshold) =>
    Tuning.set fl (interval.getD t.intervalMs) (threshold.getD (fl.ofMille t.thresholdMille))

/-- The settings section; a reply means that the handler returns. -/
def putSettings (P : Platform F G) (env : Env) (body : Value F) (d : Device F) :
    Device F × Option Reply :=
  match settingsPlan P body with
  | .error r => (d, some r)
  | .ok (pairs, knobs) =>
    let (table, done) := setSettings env.fails 0 pairs d.settings
    if done then
      ({ d with settings := table, tuning := applyKnobs P.toFloats d.tuning knobs }, none)
    else
      ({ d with settings := table }, some (.internal "failed to update settings"))

/-! ### The protocol sections -/

/-- The name under which the configuration of a protocol is stored. -/
def dbKey (name : String) : String := if name = "rtmp" then "rtmp_push" else name

/-- The entries of the protocol section; a section that is no object is passed over. -/
def protocolEntries (body : Value F) : List (String × Value F) :=
  ((body.get "protocols").bind Value.asObject).getD []

/-- One entry up to its write: the blob to store, or how the handler returns.  The operations `n` and
`n + 1` are the read and the write. -/
def mergedBlob (P : Platform F G) (env : Env) (n : ℕ) (stored : String → Option (Value F))
    (name : String) (part : Value F) : Except Reply (Value F) :=
  match validateAndCoerce P (dbKey name) part with
  | .error msg => .error (.badRequest msg)
  | .ok validated =>
    if env.fails n then .error (.internal "database error")
    else
      let current := (stored (dbKey name)).getD (.object [])
      match mergeInto current ((restoreSecrets validated current).asObject.getD []) with
      | none => .error .panicked
      | some merged =>
        match if dbKey name = "watermark" then validateWatermarkBlob P merged else .ok () with
        | .error msg => .error (.badRequest msg)
        | .ok () => if env.fails (n + 1) then .error (.internal "database error") else .ok merged

/-- The server a protocol is. -/
def serverOf (key : String) : Option Server :=
  if key = "onvif" then some .onvif
  else if key = "gb28181" then some .gb28181
  else none

/-- The flag of a blob. -/
def isEnabled (blob : Value F) : Bool := ((blob.get "enabled").bind Value.asBool).getD false

/-- Starting and stopping after a write.  A start begins with a stop, so that a start that fails leaves
the server stopped. -/
def hotToggle (env : Env) (n : ℕ) (key : String) (blob : Value F) (running : Server → Bool) :
    Server → Bool :=
  match serverOf key with
  | none => running
  | some server => Function.update running server (isEnabled blob && env.starts n)

/-- The loop over the protocols. -/
@[grind =] def putProtocols (P : Platform F G) (env : Env) :
    ℕ → List (String × Value F) → Device F → Device F × Option Reply
  | _, [], d => (d, none)
  | n, (name, part) :: entries, d =>
    match mergedBlob P env n d.protocols name part with
    | .error r => (d, some r)
    | .ok merged =>
      putProtocols P env (n + 2) entries
        { d with
          protocols := Function.update d.protocols (dbKey name) (some merged)
          running := hotToggle env n (dbKey name) merged d.running }

/-! ### The scene section -/

/-- What the scene section asks for. -/
def scenePlan (P : Platform F G) (body : Value F) : Except Reply (List (String × String)) :=
  match body.get "scene" with
  | none => .ok []
  | some (.object fields) =>
    match validateScene P (.object fields) with
    | .ok rows => .ok rows
    | .error msg => .error (.badRequest msg)
  | some _ => .error (.badRequest "scene must be an object")

/-- A field of the away settings; a key without one is passed over with a warning. -/
def applyAway (away : AwaySettings) (field value : String) : AwaySettings :=
  if field = "voice_control" then { away with voiceControl := value = "true" }
  else if field = "summary_on_disarm" then { away with summaryOnDisarm := value = "true" }
  else if field = "deterrence" then { away with deterrence := value = "true" }
  else if field = "schedule_weekdays_only" then { away with scheduleWeekdaysOnly := value = "true" }
  else if field = "audio_link" then { away with audioLink := value = "true" }
  else if field = "deterrence_text" then { away with deterrenceText := value }
  else if field = "reask_text" then { away with reaskText := value }
  else if field = "schedule_arm" then { away with scheduleArm := value }
  else if field = "schedule_disarm" then { away with scheduleDisarm := value }
  else if field = "push_url" then { away with pushUrl := value }
  else away

/-- One row applied to the handles; none stands for the panic on a number that does not parse. -/
def applyRow (P : Platform F G) (handles : SceneHandles) (key value : String) :
    Option SceneHandles :=
  if key = "scene.voice.wake_word" then some handles
  else if key = "scene.voice.follow_up_window_secs" then
    (P.parse value).map fun secs => { handles with followUpWindowMs := P.toU64 (P.times1000 secs) }
  else if key = "scene.tools.weather_enabled" then
    some { handles with tools := { handles.tools with weatherEnabled := value = "true" } }
  else if key = "scene.tools.weather_city" then
    some { handles with tools := { handles.tools with weatherCity := value } }
  else if key = "scene.tools.weather_timeout_secs" then
    (P.parse value).map fun secs =>
      { handles with tools := { handles.tools with timeoutSecs := P.toU64 secs } }
  else if key.startsWith "scene.away." then
    some { handles with
      away := applyAway handles.away (String.ofList (key.toList.drop 11)) value }
  else some handles

/-- The loop over the rows; it ends early when one panics. -/
def applyRows (P : Platform F G) : List (String × String) → SceneHandles → SceneHandles × Bool
  | [], handles => (handles, true)
  | (key, value) :: rows, handles =>
    match applyRow P handles key value with
    | none => (handles, false)
    | some handles => applyRows P rows handles

/-- The scene section. -/
def putScene (P : Platform F G) (env : Env) (n : ℕ) (body : Value F) (d : Device F) :
    Device F × Option Reply :=
  match scenePlan P body with
  | .error r => (d, some r)
  | .ok rows =>
    let (table, done) := setSettings env.fails n rows d.settings
    if done then
      let (scene, applied) := applyRows P rows d.scene
      ({ d with settings := table, scene := scene }, if applied then none else some .panicked)
    else
      ({ d with settings := table }, some (.internal "failed to update scene config"))

/-! ### The handler -/

/-- The rows of the settings section. -/
def settingsPairs (P : Platform F G) (body : Value F) : List (String × String) :=
  match settingsPlan P body with
  | .error _ => []
  | .ok (pairs, _) => pairs

/-- How a request that went through is applied. -/
def appliedOf (body : Value F) : String :=
  if (((body.get "scene").bind fun s => s.get "voice").bind fun v => v.get "wake_word").isSome then
    "restart"
  else "immediate"

/-- `put_config`. -/
def putConfig (P : Platform F G) (env : Env) (body : Value F) (d : Device F) : Device F × Reply :=
  if (body.get "settings").isNone && (body.get "protocols").isNone && (body.get "scene").isNone then
    (d, .badRequest "body must contain settings, protocols and/or scene")
  else
    match putSettings P env body d with
    | (d, some r) => (d, r)
    | (d, none) =>
      let n := (settingsPairs P body).length
      match putProtocols P env n (protocolEntries body) d with
      | (d, some r) => (d, r)
      | (d, none) =>
        match putScene P env (n + 2 * (protocolEntries body).length) body d with
        | (d, some r) => (d, r)
        | (d, none) => (d, .ok (appliedOf body))

/-! ### What is written ahead of the point of return -/

/-- The writes of rows into the table of settings. -/
def rowWrites (rows : List (String × String)) : List (String × Option String) :=
  rows.map fun r => (r.1, some r.2)

/-- The rows the settings section gets to write. -/
def settingsLanded (P : Platform F G) (env : Env) (body : Value F) : List (String × String) :=
  Writes.landing env.fails 0 (settingsPairs P body)

/-- The settings section goes through. -/
def settingsDone (P : Platform F G) (env : Env) (body : Value F) : Bool :=
  match settingsPlan P body with
  | .error _ => false
  | .ok (pairs, _) => (Writes.landing env.fails 0 pairs).length == pairs.length

/-- The knobs the settings section applies when it goes through. -/
def settingsKnobs (P : Platform F G) (body : Value F) : Option ℕ × Option G :=
  match settingsPlan P body with
  | .error _ => (none, none)
  | .ok (_, knobs) => knobs

/-- The blobs the protocol section gets to write, each with its key and the number of its read. -/
@[grind =] def protocolsLanded (P : Platform F G) (env : Env) :
    ℕ → List (String × Value F) → (String → Option (Value F)) → List (ℕ × String × Value F)
  | _, [], _ => []
  | n, (name, part) :: entries, stored =>
    match mergedBlob P env n stored name part with
    | .error _ => []
    | .ok merged =>
      (n, dbKey name, merged) ::
        protocolsLanded P env (n + 2) entries (Function.update stored (dbKey name) (some merged))

/-- The writes of blobs. -/
def blobWrites (landed : List (ℕ × String × Value F)) : List (String × Option (Value F)) :=
  landed.map fun b => (b.2.1, some b.2.2)

/-- The starts and stops that follow the writes of blobs. -/
def toggles (env : Env) (landed : List (ℕ × String × Value F)) : List (Server × Bool) :=
  landed.filterMap fun b => (serverOf b.2.1).map fun server =>
    (server, isEnabled b.2.2 && env.starts b.1)

/-- The rows of the scene section. -/
def sceneRows (P : Platform F G) (body : Value F) : List (String × String) :=
  match scenePlan P body with
  | .error _ => []
  | .ok rows => rows

/-- The blobs written ahead of the point of return. -/
def landedBlobs (P : Platform F G) (env : Env) (body : Value F) (d : Device F) :
    List (ℕ × String × Value F) :=
  if settingsDone P env body then
    protocolsLanded P env (settingsPairs P body).length (protocolEntries body) d.protocols
  else []

/-- The sections ahead of the scene go through. -/
def sceneReached (P : Platform F G) (env : Env) (body : Value F) (d : Device F) : Bool :=
  settingsDone P env body && (landedBlobs P env body d).length == (protocolEntries body).length

/-- The rows written ahead of the point of return. -/
def landedRows (P : Platform F G) (env : Env) (body : Value F) (d : Device F) :
    List (String × String) :=
  settingsLanded P env body ++
    if sceneReached P env body d then
      Writes.landing env.fails
        ((settingsPairs P body).length + 2 * (protocolEntries body).length) (sceneRows P body)
    else []

/-- What is written and applied ahead of the point of return is what is stored and runs already: under
each key the last row and the last blob, the knobs, and each server. -/
structure Repeats (P : Platform F G) (env : Env) (body : Value F) (d : Device F) : Prop where
  rows : ∀ key value, Writes.last key (landedRows P env body d) = some value →
    d.settings key = some value
  knobs : settingsDone P env body = true →
    applyKnobs P.toFloats d.tuning (settingsKnobs P body) = d.tuning
  blobs : ∀ key blob, Writes.last key ((landedBlobs P env body d).map Prod.snd) = some blob →
    d.protocols key = some blob
  servers : ∀ server running, Writes.last server (toggles env (landedBlobs P env body d)) =
    some running → d.running server = running

/-! ### What the sections do -/

theorem setSettings_eq (fails : ℕ → Bool) (n : ℕ) (rows : List (String × String))
    (table : String → Option String) :
    setSettings fails n rows table =
      (Writes.applyAll table (rowWrites (Writes.landing fails n rows)),
        (Writes.landing fails n rows).length == rows.length) := by
  induction rows generalizing n table with
  | nil => rfl
  | cons r rows ih =>
    obtain ⟨key, value⟩ := r
    rw [setSettings, Writes.landing]
    split
    · rfl
    · rw [ih]
      simp [rowWrites]

/-- The device after the settings section. -/
theorem putSettings_fst (P : Platform F G) (env : Env) (body : Value F) (d : Device F) :
    (putSettings P env body d).1 =
      { d with
        settings := Writes.applyAll d.settings (rowWrites (settingsLanded P env body))
        tuning := if settingsDone P env body then
          applyKnobs P.toFloats d.tuning (settingsKnobs P body) else d.tuning } := by
  unfold putSettings settingsLanded settingsPairs settingsDone settingsKnobs
  cases settingsPlan P body with
  | error r => rfl
  | ok plan =>
    obtain ⟨pairs, knobs⟩ := plan
    dsimp only
    rw [setSettings_eq]
    dsimp only
    split <;> rfl

theorem isNone_putSettings_snd (P : Platform F G) (env : Env) (body : Value F) (d : Device F) :
    (putSettings P env body d).2.isNone = settingsDone P env body := by
  unfold putSettings settingsDone
  cases settingsPlan P body with
  | error r => rfl
  | ok plan =>
    obtain ⟨pairs, knobs⟩ := plan
    dsimp only
    rw [setSettings_eq]
    dsimp only
    split
    next h => exact h.symm
    next h => exact (Bool.eq_false_iff.2 h).symm

/-- A start or a stop is the write of one server, or of none. -/
theorem hotToggle_eq (env : Env) (n : ℕ) (key : String) (blob : Value F) (running : Server → Bool) :
    hotToggle env n key blob running = Writes.applyAll running (toggles env [(n, key, blob)]) := by
  unfold hotToggle toggles
  cases h : serverOf key <;> simp [h]

theorem toggles_cons (env : Env) (b : ℕ × String × Value F) (landed : List (ℕ × String × Value F)) :
    toggles env (b :: landed) = toggles env [b] ++ toggles env landed := by
  unfold toggles
  cases h : serverOf b.2.1 <;> simp [h]

/-- The device after the protocol section. -/
theorem putProtocols_fst (P : Platform F G) (env : Env) (n : ℕ) (entries : List (String × Value F))
    (d : Device F) :
    (putProtocols P env n entries d).1 =
      { d with
        protocols :=
          Writes.applyAll d.protocols (blobWrites (protocolsLanded P env n entries d.protocols))
        running :=
          Writes.applyAll d.running (toggles env (protocolsLanded P env n entries d.protocols)) } := by
  induction entries generalizing n d with
  | nil => rfl
  | cons e entries ih =>
    obtain ⟨name, part⟩ := e
    rw [putProtocols, protocolsLanded]
    cases mergedBlob P env n d.protocols name part with
    | error r => rfl
    | ok merged =>
      dsimp only
      rw [ih, toggles_cons, Writes.applyAll_append, ← hotToggle_eq]
      rfl

theorem isNone_putProtocols_snd (P : Platform F G) (env : Env) (n : ℕ)
    (entries : List (String × Value F)) (d : Device F) :
    (putProtocols P env n entries d).2.isNone =
      ((protocolsLanded P env n entries d.protocols).length == entries.length) := by
  induction entries generalizing n d with
  | nil => rfl
  | cons e entries ih =>
    obtain ⟨name, part⟩ := e
    rw [putProtocols, protocolsLanded]
    cases mergedBlob P env n d.protocols name part with
    | error r => rfl
    | ok merged =>
      dsimp only
      rw [ih]
      simp

/-- The device after the scene section, up to the handles. -/
theorem putScene_fst (P : Platform F G) (env : Env) (n : ℕ) (body : Value F) (d : Device F) :
    (putScene P env n body d).1 =
      { d with
        settings := Writes.applyAll d.settings
          (rowWrites (Writes.landing env.fails n (sceneRows P body)))
        scene := (putScene P env n body d).1.scene } := by
  unfold putScene sceneRows
  cases scenePlan P body with
  | error r => rfl
  | ok rows =>
    dsimp only
    rw [setSettings_eq]
    dsimp only
    split <;> rfl

/-- The handles are touched only after the last thing that can be rejected. -/
theorem putScene_scene_of_rejected {P : Platform F G} {env : Env} {n : ℕ} {body : Value F}
    {d : Device F} {r : Reply} (h : (putScene P env n body d).2 = some r) (hr : r.rejected = true) :
    (putScene P env n body d).1.scene = d.scene := by
  unfold putScene at h ⊢
  cases hplan : scenePlan P body with
  | error r => rfl
  | ok rows =>
    rw [hplan] at h
    dsimp only at h ⊢
    split at h
    next hdone =>
      -- the section goes through, or a row panics
      dsimp only at h
      split at h
      · cases h
      · cases h
        cases hr
    next hdone => rw [if_neg hdone]

/-! ### What the handler does -/

/-- Without a section there is nothing to write. -/
theorem landed_of_noSections {P : Platform F G} {env : Env} {body : Value F} {d : Device F}
    (hsettings : body.get "settings" = none) (hprotocols : body.get "protocols" = none)
    (hscene : body.get "scene" = none) :
    landedRows P env body d = [] ∧ landedBlobs P env body d = [] ∧
      settingsKnobs P body = (none, none) := by
  have hplan : settingsPlan P body = .ok ([], none, none) := by
    rw [settingsPlan, hsettings]
  have hscenePlan : scenePlan P body = .ok [] := by
    rw [scenePlan, hscene]
  simp [landedRows, landedBlobs, settingsLanded, settingsPairs, settingsKnobs, sceneRows,
    protocolEntries, protocolsLanded, hplan, hscenePlan, hprotocols, Writes.landing]

/-- The device after the settings section, after the protocols, and after the scene. -/
def afterSettings (P : Platform F G) (env : Env) (body : Value F) (d : Device F) : Device F :=
  (putSettings P env body d).1

def afterProtocols (P : Platform F G) (env : Env) (body : Value F) (d : Device F) : Device F :=
  (putProtocols P env (settingsPairs P body).length (protocolEntries body)
    (afterSettings P env body d)).1

def afterScene (P : Platform F G) (env : Env) (body : Value F) (d : Device F) : Device F × Option Reply :=
  putScene P env ((settingsPairs P body).length + 2 * (protocolEntries body).length) body
    (afterProtocols P env body d)

theorem afterSettings_protocols (P : Platform F G) (env : Env) (body : Value F) (d : Device F) :
    (afterSettings P env body d).protocols = d.protocols := by
  rw [afterSettings, putSettings_fst]

/-- Past the settings, the scene is reached when the protocols go through. -/
theorem sceneReached_eq {P : Platform F G} {env : Env} {body : Value F} {d : Device F}
    (hdone : settingsDone P env body = true) :
    sceneReached P env body d = (putProtocols P env (settingsPairs P body).length
      (protocolEntries body) (afterSettings P env body d)).2.isNone := by
  rw [sceneReached, landedBlobs, if_pos hdone, isNone_putProtocols_snd, afterSettings_protocols,
    hdone, Bool.true_and]

/-- The ways the handler can go: without a section, and to the end of each section. -/
theorem putConfig_cases (P : Platform F G) (env : Env) (body : Value F) (d : Device F) :
    ((putConfig P env body d).1 = d ∧ landedRows P env body d = [] ∧
      landedBlobs P env body d = [] ∧ settingsKnobs P body = (none, none)) ∨
    ((putConfig P env body d).1 = afterSettings P env body d ∧ settingsDone P env body = false) ∨
    ((putConfig P env body d).1 = afterProtocols P env body d ∧ settingsDone P env body = true ∧
      sceneReached P env body d = false) ∨
    ((putConfig P env body d).1 = (afterScene P env body d).1 ∧
      (putConfig P env body d).2 = (afterScene P env body d).2.getD (.ok (appliedOf body)) ∧
      settingsDone P env body = true ∧ sceneReached P env body d = true) := by
  unfold putConfig
  split
  next hnone =>
    simp only [Bool.and_eq_true, Option.isNone_iff_eq_none] at hnone
    exact .inl ⟨rfl, landed_of_noSections hnone.1.1 hnone.1.2 hnone.2⟩
  next =>
    right
    have hset := isNone_putSettings_snd P env body d
    rcases h₁ : putSettings P env body d with ⟨d₁, _ | r⟩
    · have hdone : settingsDone P env body = true := by rw [← hset, h₁]; rfl
      have hd₁ : afterSettings P env body d = d₁ := congrArg Prod.fst h₁
      have hpro := sceneReached_eq (d := d) hdone
      right
      dsimp only
      rcases h₂ : putProtocols P env (settingsPairs P body).length (protocolEntries body) d₁ with
        ⟨d₂, _ | r⟩
      · have hd₂ : afterProtocols P env body d = d₂ := by rw [afterProtocols, hd₁, h₂]
        have hreach : sceneReached P env body d = true := by rw [hpro, hd₁, h₂]; rfl
        right
        dsimp only
        rw [afterScene, hd₂]
        rcases putScene P env ((settingsPairs P body).length + 2 * (protocolEntries body).length)
          body d₂ with ⟨d₃, _ | r⟩
        · exact ⟨rfl, rfl, hdone, hreach⟩
        · exact ⟨rfl, rfl, hdone, hreach⟩
      · have hreach : sceneReached P env body d = false := by rw [hpro, hd₁, h₂]; rfl
        have hd₂ : afterProtocols P env body d = d₂ := by rw [afterProtocols, hd₁, h₂]
        exact .inl ⟨hd₂.symm, hdone, hreach⟩
    · have hdone : settingsDone P env body = false := by rw [← hset, h₁]; rfl
      exact .inl ⟨(congrArg Prod.fst h₁).symm, hdone⟩

/-- The device past the protocols: what landed of the settings and of the protocols. -/
theorem afterProtocols_eq {P : Platform F G} {env : Env} {body : Value F} {d : Device F}
    (hdone : settingsDone P env body = true) :
    afterProtocols P env body d =
      { settings := Writes.applyAll d.settings (rowWrites (settingsLanded P env body))
        protocols := Writes.applyAll d.protocols (blobWrites (landedBlobs P env body d))
        tuning := applyKnobs P.toFloats d.tuning (settingsKnobs P body)
        scene := d.scene
        running := Writes.applyAll d.running (toggles env (landedBlobs P env body d)) } := by
  rw [afterProtocols, putProtocols_fst, afterSettings_protocols, landedBlobs, if_pos hdone,
    afterSettings, putSettings_fst, if_pos hdone]

/-- **The device after the handler**: what landed is written and applied, and nothing else but the
handles of the scene is touched. -/
theorem putConfig_fst (P : Platform F G) (env : Env) (body : Value F) (d : Device F) :
    (putConfig P env body d).1 =
      { settings := Writes.applyAll d.settings (rowWrites (landedRows P env body d))
        protocols := Writes.applyAll d.protocols (blobWrites (landedBlobs P env body d))
        tuning := if settingsDone P env body then
          applyKnobs P.toFloats d.tuning (settingsKnobs P body) else d.tuning
        scene := (putConfig P env body d).1.scene
        running := Writes.applyAll d.running (toggles env (landedBlobs P env body d)) } := by
  obtain ⟨h, hrows, hblobs, hknobs⟩ | ⟨h, hdone⟩ | ⟨h, hdone, hreach⟩ | ⟨h, -, hdone, hreach⟩ :=
    putConfig_cases P env body d
  · rw [h, hrows, hblobs, hknobs]
    simp [rowWrites, blobWrites, toggles, applyKnobs]
  · rw [h, landedRows, sceneReached, landedBlobs, hdone, afterSettings, putSettings_fst, hdone]
    simp [blobWrites, toggles]
  · rw [h, landedRows, hreach, hdone, afterProtocols_eq hdone]
    simp
  · rw [h, landedRows, hreach, hdone, afterScene, putScene_fst, afterProtocols_eq hdone]
    simp [rowWrites, Writes.applyAll_append]

/-- A rejected request leaves the handles of the scene. -/
theorem scene_putConfig_of_rejected {P : Platform F G} {env : Env} {body : Value F} {d : Device F}
    (hrej : (putConfig P env body d).2.rejected = true) :
    (putConfig P env body d).1.scene = d.scene := by
  obtain ⟨h, -⟩ | ⟨h, -⟩ | ⟨h, hdone, -⟩ | ⟨h, hreply, hdone, -⟩ := putConfig_cases P env body d
  · rw [h]
  · rw [h, afterSettings, putSettings_fst]
  · rw [h, afterProtocols_eq hdone]
  · rw [hreply] at hrej
    rw [h]
    cases hr : (afterScene P env body d).2 with
    | none =>
      rw [hr] at hrej
      cases hrej
    | some r =>
      rw [hr] at hrej
      rw [afterScene, putScene_scene_of_rejected hr hrej, afterProtocols_eq hdone]

/-! ### A rejected request -/

/-- **A rejected request changes nothing exactly when all it wrote ahead of the rejection was there
already**: the last row under each key, the last blob of each protocol, the knobs, and what runs. -/
theorem putConfig_eq_self_iff (P : Platform F G) (env : Env) (body : Value F) (d : Device F)
    (hrej : (putConfig P env body d).2.rejected = true) :
    (putConfig P env body d).1 = d ↔ Repeats P env body d := by
  have hblobs : blobWrites (landedBlobs P env body d) =
      ((landedBlobs P env body d).map Prod.snd).map fun w => (w.1, some w.2) := by
    rw [blobWrites, List.map_map]
    rfl
  rw [Device.ext_iff, scene_putConfig_of_rejected hrej, putConfig_fst]
  dsimp only
  rw [rowWrites, hblobs, Writes.applyAll_some_eq_self_iff, Writes.applyAll_some_eq_self_iff,
    Writes.applyAll_eq_self_iff]
  constructor
  · rintro ⟨hrows, hblobs, hknobs, -, hservers⟩
    refine ⟨hrows, fun hdone => ?_, hblobs, hservers⟩
    rwa [if_pos hdone] at hknobs
  · rintro ⟨hrows, hknobs, hblobs, hservers⟩
    refine ⟨hrows, hblobs, ?_, rfl, hservers⟩
    split
    next hdone => exact hknobs hdone
    next => rfl

/-- Whole numbers in the place of floats. -/
def wholeFloats : Floats Int Int where
  ofInt n := n
  inRange lo hi n := decide ((lo : Int) ≤ n ∧ n ≤ hi)
  isWhole _ := true
  toI64 n := n
  toU64 n := n.toNat
  times1000 n := n * 1000
  display n := toString n
  text n := toString n
  parse s := (parseI64 s)
  toF32 n := n
  toMille n := (max 0 (min n 1) * 1000).toNat
  ofMille m := m / 1000

/-- A platform that can read three characters and has no schema. -/
def threeCharacters : Platform Int Int where
  toFloats := wholeFloats
  pinyin c :=
    if c = '小' then some "xiǎo" else if c = '蜜' then some "mì" else if c = '蜂' then some "fēng" else none
  schemaFor _ := .object []
  watermarkFromValue _ := .error "missing"
  debug s := Json.quote s
  debugNumber n := n.text wholeFloats

/-- Nothing fails, and every server starts. -/
def noFaults : Env where
  fails _ := false
  starts _ := true

/-- A device whose tables hold the given settings, and no protocol. -/
def deviceWith (settings : String → Option String) : Device Int where
  settings := settings
  protocols _ := none
  tuning := { intervalMs := 1000, thresholdMille := 550, one_le := by decide }
  scene :=
    { followUpWindowMs := 8000
      tools := { weatherEnabled := false, weatherCity := "", timeoutSecs := 5 }
      away :=
        { voiceControl := true, summaryOnDisarm := true, deterrence := false, deterrenceText := ""
          reaskText := "", scheduleArm := "", scheduleDisarm := "", scheduleWeekdaysOnly := false
          pushUrl := "", audioLink := true } }
  running _ := false

/-- A theme that is fine, and a wake word that is not. -/
def themeAndBee : Value Int :=
  .object
    [("scene", .object [("voice", .object [("wake_word", .string "bee")])]),
      ("settings", .object [("ui", .object [("theme", .string "dark")])])]

/-- Where the theme is set to `dark` already, the rejected request changes nothing. -/
theorem putConfig_themeAndBee_unchanged :
    let d := deviceWith fun key => if key = "ui.theme" then some "dark" else none
    (putConfig threeCharacters noFaults themeAndBee d).2.rejected = true ∧
      (putConfig threeCharacters noFaults themeAndBee d).1 = d := by
  intro d
  have hrej : (putConfig threeCharacters noFaults themeAndBee d).2.rejected = true := by
    decide
  refine ⟨hrej, (putConfig_eq_self_iff threeCharacters noFaults themeAndBee d hrej).2 ?_⟩
  have hrows : landedRows threeCharacters noFaults themeAndBee d = [("ui.theme", "dark")] := by
    decide
  have hblobs : landedBlobs threeCharacters noFaults themeAndBee d = [] :=
    List.isEmpty_iff.1 (by decide)
  have hknobs : settingsKnobs threeCharacters themeAndBee = (none, none) := by decide
  refine ⟨fun key value h => ?_, fun _ => by rw [hknobs]; rfl, fun key blob h => ?_,
    fun server running h => ?_⟩
  · rw [hrows] at h
    obtain ⟨rfl, hvalue⟩ := Option.ite_none_right_eq_some.1 h
    cases hvalue
    rfl
  · rw [hblobs] at h
    cases h
  · rw [hblobs] at h
    cases h

/-- Otherwise the request is turned away for the wake word, and the theme stays set. -/
theorem putConfig_themeAndBee_persists :
    let d := deviceWith fun _ => none
    (putConfig threeCharacters noFaults themeAndBee d).2 =
        .badRequest "「b」不是可发音的汉字（唤醒词仅支持普通话汉字）" ∧
      (putConfig threeCharacters noFaults themeAndBee d).1.settings "ui.theme" = some "dark" ∧
      d.settings "ui.theme" = none ∧ (putConfig threeCharacters noFaults themeAndBee d).1 ≠ d := by
  intro d
  have hstored : (putConfig threeCharacters noFaults themeAndBee d).1.settings "ui.theme" =
      some "dark" := by decide
  refine ⟨by decide, hstored, rfl, fun h => ?_⟩
  rw [h] at hstored
  cases hstored

/-! ### Sequences of requests -/

/-- A sequence of requests. -/
def run (P : Platform F G) (reqs : List (Env × Value F)) (d : Device F) : Device F :=
  reqs.foldl (fun d req => (putConfig P req.1 req.2 d).1) d

/-- Every row the settings section writes under a key of the scene is one the scene section could have
written. -/
def SceneRowsOnly (P : Platform F G) (env : Env) (body : Value F) : Prop :=
  ∀ row ∈ settingsLanded P env body, row.1.startsWith "scene." = true → SceneRow P row.1 row.2

/-- Every row of the table under a key of the scene is one the scene section could have written. -/
def ScenesValid (P : Platform F G) (table : String → Option String) : Prop :=
  ∀ key value, table key = some value → key.startsWith "scene." = true → SceneRow P key value

/-- The rows of a scene section are known keys with values that pass. -/
theorem sceneRow_of_mem_sceneRows {P : Platform F G} {body : Value F} {row : String × String}
    (h : row ∈ sceneRows P body) : SceneRow P row.1 row.2 := by
  unfold sceneRows scenePlan at h
  split at h
  · cases h
  next rows hplan =>
    split at hplan
    · cases hplan
      cases h
    · split at hplan
      next hrows =>
        cases hplan
        exact sceneRow_of_validateScene hrows h
      · cases hplan
    · cases hplan

/-- One request keeps the rows valid. -/
theorem scenesValid_putConfig {P : Platform F G} {env : Env} {body : Value F} {d : Device F}
    (hreq : SceneRowsOnly P env body) (h : ScenesValid P d.settings) :
    ScenesValid P (putConfig P env body d).1.settings := by
  rw [putConfig_fst]
  intro key
  refine Writes.applyAll_induction
    (p := fun (key : String) (o : Option String) => ∀ value, o = some value →
      key.startsWith "scene." = true → SceneRow P key value) h (fun w hw => ?_) key
  obtain ⟨row, hrow, rfl⟩ := List.mem_map.1 hw
  rintro value ⟨⟩ hkey
  rcases List.mem_append.1 hrow with hrow | hrow
  · exact hreq row hrow hkey
  · split at hrow
    · exact sceneRow_of_mem_sceneRows ((Writes.landing_sublist _ _ _).subset hrow)
    · cases hrow

/-- The rows stay valid over a sequence of requests. -/
theorem scenesValid_run {P : Platform F G} {reqs : List (Env × Value F)} {d : Device F}
    (hreqs : ∀ req ∈ reqs, SceneRowsOnly P req.1 req.2) (h : ScenesValid P d.settings) :
    ScenesValid P (run P reqs d).settings := by
  unfold run
  induction reqs generalizing d with
  | nil => exact h
  | cons req reqs ih =>
    have hnext := scenesValid_putConfig (hreqs req List.mem_cons_self) h
    exact ih (fun r hr => hreqs r (List.mem_cons_of_mem req hr)) hnext

/-- **Only validated scene rows reach the store** as long as no settings section writes another row
under a key of the scene: whatever the requests, a row under such a key is one that `validateScene`
gives for some accepted section. -/
theorem emitted_run (P : Platform F G) (reqs : List (Env × Value F)) (d : Device F)
    (hd : ∀ key, key.startsWith "scene." = true → d.settings key = none)
    (hreqs : ∀ req ∈ reqs, SceneRowsOnly P req.1 req.2) (key value : String)
    (h : (run P reqs d).settings key = some value) (hkey : key.startsWith "scene." = true) :
    Emitted P key value := by
  have hvalid : ScenesValid P d.settings := by
    intro key value hv hkey
    rw [hd key hkey] at hv
    cases hv
  exact emitted_iff.2 (scenesValid_run hreqs hvalid key value h hkey)

/-- A theme with a row of the scene beside it. -/
def themeAndWeather : Value Int :=
  .object
    [("settings", .object
      [("scene", .object [("tools", .object [("weather_enabled", .bool true)])]),
        ("ui", .object [("theme", .string "dark")])])]

/-- A wake word that can be read. -/
def wakeWordXiaoMi : Value Int :=
  .object [("scene", .object [("voice", .object [("wake_word", .string "小蜜")])])]

/-- Two requests: the rows of the scene come through either section. -/
theorem emitted_run_themeAndWeather :
    let d := run threeCharacters [(noFaults, themeAndWeather), (noFaults, wakeWordXiaoMi)]
      (deviceWith fun _ => none)
    d.settings "scene.voice.wake_word" = some "小蜜" ∧
      d.settings "scene.tools.weather_enabled" = some "true" ∧
      ∀ key value, d.settings key = some value → key.startsWith "scene." = true →
        Emitted threeCharacters key value := by
  intro d
  have hfirst : settingsLanded threeCharacters noFaults themeAndWeather =
      [("scene.tools.weather_enabled", "true"), ("ui.theme", "dark")] := by decide
  have hsecond : settingsLanded threeCharacters noFaults wakeWordXiaoMi = [] := by decide
  refine ⟨by decide, by decide, ?_⟩
  refine emitted_run threeCharacters _ _ (fun key _ => rfl) fun req hreq => ?_
  rcases List.mem_pair.1 hreq with rfl | rfl
  · intro row hrow hkey
    rw [hfirst] at hrow
    rcases List.mem_pair.1 hrow with rfl | rfl
    · exact .weatherEnabled true
    · exact absurd hkey (by decide +kernel)
  · intro row hrow
    rw [hsecond] at hrow
    cases hrow

/-- A wake word that cannot be read, in the settings section. -/
def beeInSettings : Value Int :=
  .object
    [("settings", .object
      [("scene", .object [("voice", .object [("wake_word", .string "bee")])])])]

/-- The settings section stores a wake word the scene section turns away. -/
theorem not_emitted_run_beeInSettings :
    (∀ key, key.startsWith "scene." = true → (deviceWith fun _ => none).settings key = none) ∧
      (run threeCharacters [(noFaults, beeInSettings)] (deviceWith fun _ => none)).settings
        "scene.voice.wake_word" = some "bee" ∧
      ¬ Emitted threeCharacters "scene.voice.wake_word" "bee" := by
  refine ⟨fun key _ => rfl, by decide, fun h => ?_⟩
  obtain ⟨line, hline⟩ := keywordLine_of_sceneRow (emitted_iff.1 h)
  have herror : (wakeWordToKeywordLine threeCharacters "bee").toOption = none := by decide
  rw [hline] at herror
  cases herror

end Config
