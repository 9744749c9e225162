/-
**The configuration document: settings bag and scene section.**

`PUT /api/config` (`crates/web/src/routes/config_api.rs`) takes one JSON document.  Two of its
sections end in the same table of settings, a bag of dotted keys and texts.  `flattenToDotted` writes
out any nesting of the section `settings` as such rows.  `validateScene` goes through the section
`scene`, whose keys are known and whose values are checked, and gives the rows to persist or says what
is wrong.

Main definitions:

* `Config.Platform` — what the handlers take from elsewhere: floats, readings of characters, schemas;
* `Config.flattenToDotted` — the rows of a settings section;
* `Config.wakeWordToKeywordLine`, `Config.validScheduleTime` — checks of single values;
* `Config.validateScene` — the rows of a scene section;
* `Config.SceneRow` — the known keys with the values that pass for them.

Main results:

* `Config.emitted_iff` — **the rows `validateScene` gives for some accepted section are exactly those
  of `SceneRow`**.
-/

import MibeeEye.JsonValue
import MibeeEye.Text

set_option relaxedAutoImplicit false
set_option autoImplicit false

namespace Config

open Json (Value Number Floats boolText)

variable {F G : Type}

/-! ### What is taken from elsewhere -/

/-- The settings of the watermark, as far as they are checked. -/
structure WatermarkSettings where
  enabled : Bool
  text : String
  showTimestamp : Bool
  timestampFormat : String
deriving DecidableEq

/-- What the handlers take from elsewhere. -/
structure Platform (F G : Type) extends Floats F G where
  /-- The reading of a character, with its tone. -/
  pinyin : Char → Option String
  /-- The schema generated for a protocol's configuration. -/
  schemaFor : String → Value F
  /-- The watermark settings read off a document. -/
  watermarkFromValue : Value F → Except String WatermarkSettings
  /-- A string in the format for debugging. -/
  debug : String → String
  /-- A number in the format for debugging. -/
  debugNumber : Number F → String

/-! ### The settings section -/

mutual

/-- `flatten_to_dotted`. -/
@[grind =] def flattenToDotted (fl : Floats F G) (path : String) : Value F → List (String × String)
  | .object fields => flattenFields fl path fields
  | .string s => [(path, s)]
  | .bool b => [(path, boolText b)]
  | .number n => [(path, n.text fl)]
  | other => [(path, other.text fl)]

/-- The loop over the fields of an object. -/
@[grind =] def flattenFields (fl : Floats F G) (path : String) :
    List (String × Value F) → List (String × String)
  | [] => []
  | (k, v) :: fields =>
    flattenToDotted fl (if path = "" then k else path ++ "." ++ k) v ++ flattenFields fl path fields

end

/-! ### Checks of single values -/

/-- `Option::ok_or`. -/
@[grind =] def okOr {α : Type} (o : Option α) (msg : String) : Except String α :=
  match o with
  | some a => .ok a
  | none => .error msg

/-- `INITIALS`. -/
def initials : List String :=
  ["zh", "ch", "sh", "b", "p", "m", "f", "d", "t", "n", "l", "g", "k", "h", "j", "q", "x", "r", "z",
    "c", "s", "y", "w"]

/-- The longest initial a syllable goes on after. -/
def initialOf (syllable : String) : Option String :=
  (initials.filter fun i => syllable.startsWith i && i.utf8ByteSize < syllable.utf8ByteSize).foldl
    (fun best i =>
      match best with
      | none => some i
      | some b => if b.utf8ByteSize ≤ i.utf8ByteSize then some i else some b)
    none

/-- The tokens of one syllable: initial and final, when it has an initial. -/
def syllableTokens (syllable : String) : List String :=
  match initialOf syllable with
  | some i => [i, String.ofList (syllable.toList.drop i.toList.length)]
  | none => [syllable]

/-- The tokens of a word, or the character that cannot be pronounced. -/
def keywordTokens (P : Platform F G) : List Char → Except String (List String)
  | [] => .ok []
  | c :: cs => do
    let syllable ← okOr (P.pinyin c) ("「" ++ String.ofList [c] ++ "」不是可发音的汉字（唤醒词仅支持普通话汉字）")
    let tokens ← keywordTokens P cs
    return syllableTokens syllable ++ tokens

/-- `wake_word_to_keyword_line`. -/
def wakeWordToKeywordLine (P : Platform F G) (word : String) : Except String String :=
  if word.length < 2 ∨ 6 < word.length then .error "唤醒词长度须为 2-6 个汉字"
  else do
    let tokens ← keywordTokens P word.toList
    return String.intercalate " " tokens ++ " @" ++ word

/-- The number two digits stand for. -/
def twoDigits (a b : Char) : ℕ := (a.toNat - 48) * 10 + (b.toNat - 48)

/-- `valid_schedule_time`: two digits, a colon and two digits, or nothing. -/
def validScheduleTime (s : String) : Bool :=
  match s.toList with
  | [] => true
  | [a, b, ':', c, d] =>
    [a, b, c, d].all Char.isDigit && twoDigits a b < 24 && twoDigits c d < 60
  | _ => false

/-- `format_number`. -/
def formatNumber (fl : Floats F G) (n : F) : String :=
  if fl.isWhole n then toString (fl.toI64 n) else fl.display n

/-! ### The scene section -/

/-- The row of a field that is a Boolean. -/
def boolRow (key : String) (val : Value F) : Except String (String × String) := do
  let b ← okOr val.asBool (key ++ " must be a boolean")
  return (key, boolText b)

/-- The row of a field that is a text of at most `max` characters. -/
def textRow (key : String) (max : ℕ) (val : Value F) : Except String (String × String) := do
  let s ← okOr val.asStr (key ++ " must be a string")
  if max < s.length then
    .error (key ++ " too long (max " ++ toString max ++ " chars)")
  else
    return (key, s)

/-- The row of a field that is a time of the day. -/
def timeRow (key : String) (val : Value F) : Except String (String × String) := do
  let s ← okOr val.asStr (key ++ " must be a string")
  if validScheduleTime s then
    return (key, s)
  else
    .error (key ++ " must be HH:MM or empty")

/-- A field of `scene.voice`. -/
@[grind =]
def voiceRow (P : Platform F G) (k : String) (val : Value F) : Except String (String × String) :=
  if k = "wake_word" then do
    let w ← okOr val.asStr "scene.voice.wake_word must be a string"
    let _ ← wakeWordToKeywordLine P w
    return ("scene.voice.wake_word", w)
  else if k = "follow_up_window_secs" then do
    let n ← okOr (val.asF64 P.toFloats) "scene.voice.follow_up_window_secs must be a number"
    if P.inRange 0 120 n then
      return ("scene.voice.follow_up_window_secs", formatNumber P.toFloats n)
    else
      .error "scene.voice.follow_up_window_secs must be within 0..=120"
  else .error ("unknown scene.voice key: " ++ k)

/-- The fields of `scene.away` that are Booleans. -/
def awayFlags : List String :=
  ["voice_control", "summary_on_disarm", "deterrence", "schedule_weekdays_only", "audio_link"]

/-- The fields of `scene.away` that are spoken texts. -/
def awayTexts : List String := ["deterrence_text", "reask_text"]

/-- The fields of `scene.away` that are times of the day. -/
def awayTimes : List String := ["schedule_arm", "schedule_disarm"]

/-- A field of `scene.away`. -/
def awayRow (k : String) (val : Value F) : Except String (String × String) :=
  if k ∈ awayFlags then boolRow ("scene.away." ++ k) val
  else if k ∈ awayTexts then textRow ("scene.away." ++ k) 80 val
  else if k ∈ awayTimes then timeRow ("scene.away." ++ k) val
  else if k = "push_url" then do
    let s ← okOr val.asStr "scene.away.push_url must be a string"
    if s ≠ "" ∧ ¬ (s.startsWith "http://" || s.startsWith "https://") then
      .error "scene.away.push_url must be an http(s) URL or empty"
    else if 256 < s.utf8ByteSize then
      .error "scene.away.push_url too long (max 256 chars)"
    else
      return ("scene.away.push_url", s)
  else .error ("unknown scene.away key: " ++ k)

/-- A field of `scene.tools`. -/
@[grind =]
def toolsRow (P : Platform F G) (k : String) (val : Value F) : Except String (String × String) :=
  if k = "weather_enabled" then boolRow "scene.tools.weather_enabled" val
  else if k = "weather_city" then textRow "scene.tools.weather_city" 64 val
  else if k = "weather_timeout_secs" then do
    let n ← okOr (val.asF64 P.toFloats) "scene.tools.weather_timeout_secs must be a number"
    if P.inRange 1 30 n && P.isWhole n then
      return ("scene.tools.weather_timeout_secs", formatNumber P.toFloats n)
    else
      .error "scene.tools.weather_timeout_secs must be an integer within 1..=30"
  else .error ("unknown scene.tools key: " ++ k)

/-- The rows of one part of the section: one for each field, or the first complaint. -/
def partRows (row : String → Value F → Except String (String × String)) :
    List (String × Value F) → Except String (List (String × String))
  | [] => .ok []
  | (k, val) :: fields => do
    let r ← row k val
    let rows ← partRows row fields
    return r :: rows

/-- One part of the section, which may be absent. -/
@[grind =]
def validatePart (name : String) (row : String → Value F → Except String (String × String))
    (scene : Value F) : Except String (List (String × String)) :=
  match scene.get name with
  | none => .ok []
  | some part => do
    let fields ← okOr part.asObject ("scene." ++ name ++ " must be an object")
    partRows row fields

/-- `validate_scene`. -/
def validateScene (P : Platform F G) (scene : Value F) : Except String (List (String × String)) := do
  let voice ← validatePart "voice" (voiceRow P) scene
  let away ← validatePart "away" awayRow scene
  let tools ← validatePart "tools" (toolsRow P) scene
  return voice ++ away ++ tools

/-! ### What can come out of the scene section -/

/-- The known keys with the values that pass for them. -/
inductive SceneRow (P : Platform F G) : String → String → Prop
  | wakeWord {w line : String} (h : wakeWordToKeywordLine P w = .ok line) :
      SceneRow P "scene.voice.wake_word" w
  | followUpWindowSecs {n : Number F} (h : P.inRange 0 120 (n.asF64 P.toFloats) = true) :
      SceneRow P "scene.voice.follow_up_window_secs" (formatNumber P.toFloats (n.asF64 P.toFloats))
  | awayFlag {k : String} (h : k ∈ awayFlags) (b : Bool) :
      SceneRow P ("scene.away." ++ k) (boolText b)
  | awayText {k s : String} (h : k ∈ awayTexts) (hs : s.length ≤ 80) :
      SceneRow P ("scene.away." ++ k) s
  | awayTime {k s : String} (h : k ∈ awayTimes) (hs : validScheduleTime s = true) :
      SceneRow P ("scene.away." ++ k) s
  | pushUrl {s : String}
      (h : s = "" ∨ (s.startsWith "http://" || s.startsWith "https://") = true)
      (hs : s.utf8ByteSize ≤ 256) : SceneRow P "scene.away.push_url" s
  | weatherEnabled (b : Bool) : SceneRow P "scene.tools.weather_enabled" (boolText b)
  | weatherCity {c : String} (h : c.length ≤ 64) : SceneRow P "scene.tools.weather_city" c
  | weatherTimeoutSecs {n : Number F}
      (h : (P.inRange 1 30 (n.asF64 P.toFloats) && P.isWhole (n.asF64 P.toFloats)) = true) :
      SceneRow P "scene.tools.weather_timeout_secs"
        (formatNumber P.toFloats (n.asF64 P.toFloats))

/-- The row is one that `validateScene` gives for some accepted section. -/
def Emitted (P : Platform F G) (k v : String) : Prop :=
  ∃ scene rows, validateScene P scene = .ok rows ∧ (k, v) ∈ rows

theorem bind_eq_ok {α β : Type} {x : Except String α} {f : α → Except String β} {b : β} :
    (x >>= f) = .ok b ↔ ∃ a, x = .ok a ∧ f a = .ok b := by
  cases x with
  | error e =>
    constructor
    · intro h
      cases h
    · rintro ⟨a, h, -⟩
      cases h
  | ok a =>
    constructor
    · intro h
      exact ⟨a, rfl, h⟩
    · rintro ⟨a', h, h'⟩
      cases h
      exact h'

theorem okOr_eq_ok {α : Type} {o : Option α} {msg : String} {a : α} :
    okOr o msg = .ok a ↔ o = some a := by
  cases o <;> simp [okOr]

theorem asF64_eq_some {fl : Floats F G} {v : Value F} {x : F} (h : v.asF64 fl = some x) :
    ∃ n : Number F, v = .number n ∧ n.asF64 fl = x := by
  cases v with
  | number n => exact ⟨n, rfl, Option.some.inj h⟩
  | _ => cases h

theorem boolRow_eq_ok {key : String} {val : Value F} {r : String × String}
    (h : boolRow key val = .ok r) : ∃ b, r = (key, boolText b) := by
  obtain ⟨b, -, hr⟩ := bind_eq_ok.1 h
  cases hr
  exact ⟨b, rfl⟩

theorem textRow_eq_ok {key : String} {max : ℕ} {val : Value F} {r : String × String}
    (h : textRow key max val = .ok r) : ∃ s, s.length ≤ max ∧ r = (key, s) := by
  obtain ⟨s, -, hr⟩ := bind_eq_ok.1 h
  split at hr
  · cases hr
  · cases hr
    exact ⟨s, by omega, rfl⟩

theorem timeRow_eq_ok {key : String} {val : Value F} {r : String × String}
    (h : timeRow key val = .ok r) : ∃ s, validScheduleTime s = true ∧ r = (key, s) := by
  obtain ⟨s, -, hr⟩ := bind_eq_ok.1 h
  split at hr
  · cases hr
    exact ⟨s, ‹_›, rfl⟩
  · cases hr

theorem sceneRow_voiceRow {P : Platform F G} {k : String} {val : Value F} {r : String × String}
    (h : voiceRow P k val = .ok r) : SceneRow P r.1 r.2 := by
  unfold voiceRow at h
  split at h
  · obtain ⟨w, -, hw⟩ := bind_eq_ok.1 h
    obtain ⟨line, hline, hr⟩ := bind_eq_ok.1 hw
    cases hr
    exact .wakeWord hline
  · split at h
    · obtain ⟨x, hx, hr⟩ := bind_eq_ok.1 h
      obtain ⟨n, -, rfl⟩ := asF64_eq_some (okOr_eq_ok.1 hx)
      split at hr
      · cases hr
        exact .followUpWindowSecs ‹_›
      · cases hr
    · cases h

theorem sceneRow_awayRow (P : Platform F G) {k : String} {val : Value F} {r : String × String}
    (h : awayRow k val = .ok r) : SceneRow P r.1 r.2 := by
  unfold awayRow at h
  split at h
  next hk =>
    obtain ⟨b, rfl⟩ := boolRow_eq_ok h
    exact .awayFlag hk b
  next =>
    split at h
    next hk =>
      obtain ⟨s, hs, rfl⟩ := textRow_eq_ok h
      exact .awayText hk hs
    next =>
      split at h
      next hk =>
        obtain ⟨s, hs, rfl⟩ := timeRow_eq_ok h
        exact .awayTime hk hs
      next =>
        split at h
        next =>
          obtain ⟨s, -, hr⟩ := bind_eq_ok.1 h
          split at hr
          · cases hr
          next hurl =>
            split at hr
            · cases hr
            next hlen =>
              cases hr
              refine .pushUrl ?_ (Nat.le_of_not_lt hlen)
              by_contra hnot
              rw [not_or] at hnot
              exact hurl hnot
        next => cases h

theorem sceneRow_toolsRow {P : Platform F G} {k : String} {val : Value F} {r : String × String}
    (h : toolsRow P k val = .ok r) : SceneRow P r.1 r.2 := by
  unfold toolsRow at h
  split at h
  · obtain ⟨b, rfl⟩ := boolRow_eq_ok h
    exact .weatherEnabled b
  · split at h
    · obtain ⟨s, hs, rfl⟩ := textRow_eq_ok h
      exact .weatherCity hs
    · split at h
      · obtain ⟨x, hx, hr⟩ := bind_eq_ok.1 h
        obtain ⟨n, -, rfl⟩ := asF64_eq_some (okOr_eq_ok.1 hx)
        split at hr
        · cases hr
          exact .weatherTimeoutSecs ‹_›
        · cases hr
      · cases h

/-- A row of a part comes from one of its fields. -/
theorem mem_partRows {row : String → Value F → Except String (String × String)}
    {fields : List (String × Value F)} {rows : List (String × String)} {r : String × String}
    (h : partRows row fields = .ok rows) (hr : r ∈ rows) : ∃ k val, row k val = .ok r := by
  induction fields generalizing rows with
  | nil =>
    cases h
    cases hr
  | cons f fields ih =>
    obtain ⟨r', hr', h⟩ := bind_eq_ok.1 h
    obtain ⟨rows', hrows', h⟩ := bind_eq_ok.1 h
    cases h
    rcases List.mem_cons.1 hr with rfl | hr
    · exact ⟨f.1, f.2, hr'⟩
    · exact ih hrows' hr

theorem mem_validatePart {name : String}
    {row : String → Value F → Except String (String × String)} {scene : Value F}
    {rows : List (String × String)} {r : String × String}
    (h : validatePart name row scene = .ok rows) (hr : r ∈ rows) : ∃ k val, row k val = .ok r := by
  unfold validatePart at h
  split at h
  · cases h
    cases hr
  · obtain ⟨fields, -, h⟩ := bind_eq_ok.1 h
    exact mem_partRows h hr

/-- Every row of an accepted section has a known key and a value that passes for it. -/
theorem sceneRow_of_validateScene {P : Platform F G} {scene : Value F}
    {rows : List (String × String)} {r : String × String} (h : validateScene P scene = .ok rows)
    (hr : r ∈ rows) : SceneRow P r.1 r.2 := by
  obtain ⟨voice, hvoice, h⟩ := bind_eq_ok.1 h
  obtain ⟨away, haway, h⟩ := bind_eq_ok.1 h
  obtain ⟨tools, htools, h⟩ := bind_eq_ok.1 h
  cases h
  rcases List.mem_append.1 hr with hr | hr
  · rcases List.mem_append.1 hr with hr | hr
    · obtain ⟨k, val, h⟩ := mem_validatePart hvoice hr
      exact sceneRow_voiceRow h
    · obtain ⟨k, val, h⟩ := mem_validatePart haway hr
      exact sceneRow_awayRow P h
  · obtain ⟨k, val, h⟩ := mem_validatePart htools hr
    exact sceneRow_toolsRow h

/-- A section with one part, and in it one field. -/
def soleField (name k : String) (val : Value F) : Value F :=
  .object [(name, .object [(k, val)])]

theorem validatePart_soleField {name k : String} {val : Value F}
    {row : String → Value F → Except String (String × String)} {r : String × String}
    (h : row k val = .ok r) : validatePart name row (soleField name k val) = .ok [r] := by
  simp only [validatePart, soleField, Value.get_object, Json.lookup, if_true, Value.asObject, okOr]
  change (row k val >>= fun r => .ok [r]) = _
  rw [h]
  rfl

theorem validatePart_soleField_of_ne {name name' k : String} {val : Value F}
    {row : String → Value F → Except String (String × String)} (h : name ≠ name') :
    validatePart name' row (soleField name k val) = .ok [] := by
  simp only [validatePart, soleField, Value.get_object, Json.lookup, if_neg h]

/-- A field that passes makes an accepted section of its own. -/
theorem emitted_voiceRow {P : Platform F G} (k : String) (val : Value F) {r : String × String}
    (h : voiceRow P k val = .ok r) : Emitted P r.1 r.2 := by
  refine ⟨soleField "voice" k val, [r], ?_, List.mem_singleton_self r⟩
  rw [validateScene, validatePart_soleField h, validatePart_soleField_of_ne (by decide),
    validatePart_soleField_of_ne (by decide)]
  rfl

theorem emitted_awayRow {P : Platform F G} (k : String) (val : Value F) {r : String × String}
    (h : awayRow k val = .ok r) : Emitted P r.1 r.2 := by
  refine ⟨soleField "away" k val, [r], ?_, List.mem_singleton_self r⟩
  rw [validateScene, validatePart_soleField h, validatePart_soleField_of_ne (by decide),
    validatePart_soleField_of_ne (by decide)]
  rfl

theorem emitted_toolsRow {P : Platform F G} (k : String) (val : Value F) {r : String × String}
    (h : toolsRow P k val = .ok r) : Emitted P r.1 r.2 := by
  refine ⟨soleField "tools" k val, [r], ?_, List.mem_singleton_self r⟩
  rw [validateScene, validatePart_soleField h, validatePart_soleField_of_ne (by decide),
    validatePart_soleField_of_ne (by decide)]
  rfl

/-- **The rows `validateScene` gives for some accepted section are exactly those of `SceneRow`**: a
known key, with a value that passes for it. -/
theorem emitted_iff {P : Platform F G} {k v : String} : Emitted P k v ↔ SceneRow P k v := by
  constructor
  · rintro ⟨scene, rows, h, hr⟩
    exact sceneRow_of_validateScene h hr
  · intro h
    cases h with
    | wakeWord h =>
      refine emitted_voiceRow "wake_word" (.string v) (r := (_, v)) ?_
      rw [voiceRow, if_pos rfl]
      exact bind_eq_ok.2 ⟨v, rfl, bind_eq_ok.2 ⟨_, h, rfl⟩⟩
    | @followUpWindowSecs n h =>
      refine emitted_voiceRow "follow_up_window_secs" (.number n) (r := (_, _)) ?_
      rw [voiceRow, if_neg (by decide), if_pos rfl]
      exact bind_eq_ok.2 ⟨_, rfl, if_pos h⟩
    | @awayFlag k h b =>
      refine emitted_awayRow k (.bool b) (r := (_, _)) ?_
      rw [awayRow, if_pos h]
      rfl
    | @awayText k _ h hs =>
      have hkind : ∀ k ∈ awayTexts, k ∉ awayFlags := by decide
      refine emitted_awayRow k (.string v) (r := (_, _)) ?_
      rw [awayRow, if_neg (hkind _ h), if_pos h]
      exact bind_eq_ok.2 ⟨v, rfl, if_neg (Nat.not_lt.2 hs)⟩
    | @awayTime k _ h hs =>
      have hkind : ∀ k ∈ awayTimes, k ∉ awayFlags ∧ k ∉ awayTexts := by decide
      refine emitted_awayRow k (.string v) (r := (_, _)) ?_
      rw [awayRow, if_neg (hkind _ h).1, if_neg (hkind _ h).2, if_pos h]
      exact bind_eq_ok.2 ⟨v, rfl, if_pos hs⟩
    | pushUrl h hs =>
      refine emitted_awayRow "push_url" (.string v) (r := (_, _)) ?_
      rw [awayRow, if_neg (by decide), if_neg (by decide), if_neg (by decide), if_pos rfl]
      refine bind_eq_ok.2 ⟨v, rfl, ?_⟩
      rw [if_neg (fun hn => h.elim hn.1 hn.2), if_neg (Nat.not_lt.2 hs)]
      rfl
    | weatherEnabled b =>
      refine emitted_toolsRow "weather_enabled" (.bool b) (r := (_, _)) ?_
      rw [toolsRow, if_pos rfl]
      rfl
    | weatherCity h =>
      refine emitted_toolsRow "weather_city" (.string v) (r := (_, _)) ?_
      rw [toolsRow, if_neg (by decide), if_pos rfl]
      exact bind_eq_ok.2 ⟨v, rfl, if_neg (Nat.not_lt.2 h)⟩
    | @weatherTimeoutSecs n h =>
      refine emitted_toolsRow "weather_timeout_secs" (.number n) (r := (_, _)) ?_
      rw [toolsRow, if_neg (by decide), if_neg (by decide), if_pos rfl]
      exact bind_eq_ok.2 ⟨_, rfl, if_pos h⟩

/-- A wake word that comes out of the section has a keywords line. -/
theorem keywordLine_of_sceneRow {P : Platform F G} {w : String}
    (h : SceneRow P "scene.voice.wake_word" w) : ∃ line, wakeWordToKeywordLine P w = .ok line := by
  have hflags : ∀ k ∈ awayFlags, "scene.voice.wake_word" ≠ "scene.away." ++ k := by decide
  have htexts : ∀ k ∈ awayTexts, "scene.voice.wake_word" ≠ "scene.away." ++ k := by decide
  have htimes : ∀ k ∈ awayTimes, "scene.voice.wake_word" ≠ "scene.away." ++ k := by decide
  generalize hkey : "scene.voice.wake_word" = key at h
  cases h with
  | wakeWord h => exact ⟨_, h⟩
  | awayFlag h b => exact absurd hkey (hflags _ h)
  | awayText h _ => exact absurd hkey (htexts _ h)
  | awayTime h _ => exact absurd hkey (htimes _ h)
  | followUpWindowSecs _ | pushUrl _ _ | weatherEnabled _ | weatherCity _ | weatherTimeoutSecs _ =>
    exact absurd hkey (by decide)

end Config
