/-
**The configuration document: protocol sections.**

Each protocol keeps a blob of its configuration.  An update of it names some of its fields;
`validateAndCoerce` (`crates/web/src/routes/protocols.rs`) goes through them with the schema of the
protocol at hand, turns away fields the schema does not know, and turns numbers and Booleans that came
as strings into what they stand for.
Secrets read back as four asterisks; written back so, `restoreSecrets` puts the stored secret in their
place.  What remains is laid over the stored blob.

Main definitions:

* `Config.validateAndCoerce` — the fields of an update, or what is wrong with them;
* `Config.restoreSecrets` — the stored secrets under an update;
* `Config.mergeInto` — the update laid over the stored blob;
* `Config.validateWatermarkBlob` — the checks of the merged blob of the watermark.

Main results:

* `Config.known_of_validateAndCoerce` — **every field of an accepted update is a property of the
  protocol's schema**;
* `Config.eq_nil_of_validateAndCoerce` — under a name that is no protocol's, only the empty update is
  accepted.
-/

import MibeeEye.ConfigDocument

set_option relaxedAutoImplicit false
set_option autoImplicit false

namespace Config

open Json (Value Number lookup)

variable {F G : Type}

/-! ### Schemas -/

/-- The protocols that have a configuration. -/
def protocolNames : List String :=
  ["onvif", "gb28181", "rtmp_push", "recording", "webrtc", "watermark"]

/-- `schema_for`. -/
def schemaFor (P : Platform F G) (protocol : String) : Value F :=
  if protocol ∈ protocolNames then P.schemaFor protocol else .object []

/-- `resolve_ref`. -/
@[grind =] def resolveRef (root schema : Value F) : Value F :=
  match _h : schema.get "allOf" with
  | some (.array [inner]) => resolveRef root inner
  | _ =>
    match (schema.get "$ref").bind Value.asStr with
    | none => schema
    | some path =>
      -- `strip_prefix` leaves what stands after the 14 characters
      if path.startsWith "#/definitions/" then
        ((root.get "definitions").bind
          fun d => d.get (String.ofList (path.toList.drop 14))).getD schema
      else schema
termination_by sizeOf schema
decreasing_by
  have := Json.sizeOf_get_lt _h
  simp at this
  omega

/-- `schema_u64`. -/
def schemaU64 (P : Platform F G) (v : Option (Value F)) (default : ℕ) : ℕ :=
  (v.bind fun v => (v.asU64.map Fin.val).or ((v.asF64 P.toFloats).map P.toU64)).getD default

/-- The properties an object schema declares. -/
def propertiesOf (schema : Value F) : List (String × Value F) :=
  ((schema.get "properties").bind Value.asObject).getD []

/-! ### Coercion -/

/-- `type_name`. -/
def typeName : Value F → String
  | .null => "null"
  | .bool _ => "bool"
  | .number _ => "number"
  | .string _ => "string"
  | .array _ => "array"
  | .object _ => "object"

/-- `str::parse::<i64>`. -/
def parseI64 (s : String) : Option Int :=
  match s.toList with
  | '-' :: '+' :: _ => none
  | '-' :: digits => (Text.parseUnsigned 10 (2 ^ 63 + 1) digits).map fun n => -(n : Int)
  | digits => (Text.parseUnsigned 10 (2 ^ 63) digits).map fun n => (n : Int)

/-- The complaint that a number is out of range. -/
def outOfRange (n : Int) (min max : ℕ) : String :=
  "integer " ++ toString n ++ " out of range [" ++ toString min ++ ", " ++ toString max ++ "]"

/-- `coerce_uint`. -/
def coerceUint (P : Platform F G) (v : Value F) (min max : ℕ) : Except String (Fin (2 ^ 64)) :=
  match v with
  | .number n =>
    match n.asU64 with
    | none => .error ("expected integer, got float " ++ P.debugNumber n)
    | some u => if u.val < min ∨ max < u.val then .error (outOfRange u.val min max) else .ok u
  | .string s =>
    match parseI64 s with
    | none => .error ("expected integer, got string " ++ P.debug s)
    | some parsed =>
      if parsed < 0 then .error (outOfRange parsed min max)
      else
        let u := Fin.ofNat (2 ^ 64) parsed.toNat
        if u.val < min ∨ max < u.val then .error (outOfRange u.val min max) else .ok u
  | other => .error ("expected integer, got " ++ typeName other)

/-- A string where the schema declares one: among the declared values, and not too long. -/
def coerceString (P : Platform F G) (schema : Value F) (s : String) : Except String (Value F) := do
  let allowed := (schema.get "enum").bind Value.asArray
  if allowed.any fun values => ! values.any fun a => a.asStr = some s then
    .error ("value " ++ P.debug s ++ " not in [" ++
      String.intercalate ", " ((allowed.getD []).filterMap Value.asStr) ++ "]")
  let maxLen := (schema.get "maxLength").bind fun m =>
    (m.asU64.map Fin.val).or ((m.asF64 P.toFloats).map P.toU64)
  match maxLen with
  | some n =>
    if n < s.length then
      .error ("string length " ++ toString s.length ++ " exceeds maxLength " ++ toString n)
    else
      .ok (.string s)
  | none => .ok (.string s)

/-- `coerce_leaf`. -/
def coerceLeaf (P : Platform F G) (schema v : Value F) : Except String (Value F) :=
  let type := ((schema.get "type").bind Value.asStr).getD ""
  if type = "boolean" then
    match v with
    | .bool b => .ok (.bool b)
    | .string s =>
      if s = "true" then .ok (.bool true)
      else if s = "false" then .ok (.bool false)
      else .error ("expected bool, got string " ++ P.debug s)
    | other => .error ("expected bool, got " ++ typeName other)
  else if type = "integer" then do
    let min := schemaU64 P (schema.get "minimum") 0
    let max := schemaU64 P (schema.get "maximum") (2 ^ 64 - 1)
    let u ← coerceUint P v min max
    return .number (.posInt u)
  else if type = "string" then
    match v with
    | .string s => coerceString P schema s
    | other => .error ("expected string, got " ++ typeName other)
  else .ok v

/-- The first loop of `validate_object`, ahead of the coercion: no field is unknown. -/
def ifKnown (P : Platform F G) (properties fields : List (String × Value F))
    (coerced : Except String (List (String × Value F))) : Except String (Value F) :=
  match fields.find? fun f => (lookup f.1 properties).isNone with
  | some f => .error ("unknown field " ++ P.debug f.1)
  | none => coerced.map .object

mutual

/-- `coerce_value`. -/
def coerceValue (P : Platform F G) (root schema : Value F) : Value F → Except String (Value F)
  | .object inner =>
    let resolved := resolveRef root schema
    if (resolved.get "properties").isSome then
      ifKnown P (propertiesOf resolved) inner (coerceFields P root (propertiesOf resolved) inner [])
    else coerceLeaf P schema (.object inner)
  | v => coerceLeaf P schema v

/-- The second loop of `validate_object`; every field has been found to be known. -/
def coerceFields (P : Platform F G) (root : Value F) (properties : List (String × Value F)) :
    List (String × Value F) → List (String × Value F) → Except String (List (String × Value F))
  | [], out => .ok out
  | (k, v) :: fields, out =>
    let schema := resolveRef root ((lookup k properties).getD .null)
    match coerceValue P root schema v with
    | .error e => .error ("field " ++ P.debug k ++ ": " ++ e)
    | .ok coerced => coerceFields P root properties fields (Json.insert k coerced out)

end

/-- `validate_object`. -/
def validateObject (P : Platform F G) (root schema : Value F) (fields : List (String × Value F)) :
    Except String (Value F) :=
  ifKnown P (propertiesOf schema) fields (coerceFields P root (propertiesOf schema) fields [])

/-- `validate_and_coerce`. -/
def validateAndCoerce (P : Platform F G) (protocol : String) (payload : Value F) :
    Except String (Value F) :=
  match payload.asObject with
  | none =>
    .error ("expected JSON object for " ++ protocol ++ " config update, got " ++ typeName payload)
  | some fields =>
    let schema := schemaFor P protocol
    match validateObject P schema schema fields with
    | .ok v => .ok v
    | .error e =>
      if e.startsWith "unknown field" then
        .error (e ++ " for " ++ protocol ++
          " config; if this is a new setting, add it to the struct in config.rs first")
      else .error e

/-- Fields that get through the first loop are properties of the schema. -/
theorem known_of_ifKnown {P : Platform F G} {properties fields : List (String × Value F)}
    {coerced : Except String (List (String × Value F))} {v : Value F}
    (h : ifKnown P properties fields coerced = .ok v) :
    ∀ f ∈ fields, (lookup f.1 properties).isSome := by
  intro f hf
  unfold ifKnown at h
  split at h
  · cases h
  next hnone =>
    have := List.find?_eq_none.1 hnone f hf
    simpa [Option.isSome_iff_ne_none] using this

/-- **Every field of an accepted update is a property of the protocol's schema.** -/
theorem known_of_validateAndCoerce {P : Platform F G} {protocol : String} {payload v : Value F}
    (h : validateAndCoerce P protocol payload = .ok v) :
    ∃ fields, payload = .object fields ∧
      ∀ f ∈ fields, (lookup f.1 (propertiesOf (schemaFor P protocol))).isSome := by
  cases payload with
  | object fields =>
    refine ⟨fields, rfl, ?_⟩
    unfold validateAndCoerce at h
    dsimp only [Value.asObject] at h
    split at h
    next hv => exact known_of_ifKnown hv
    next =>
      split at h
      · cases h
      · cases h
  | _ => cases h

/-- Under a name that is no protocol's, only the empty update is accepted. -/
theorem eq_nil_of_validateAndCoerce {P : Platform F G} {protocol : String} {payload v : Value F}
    (hname : protocol ∉ protocolNames) (h : validateAndCoerce P protocol payload = .ok v) :
    payload = .object [] := by
  obtain ⟨fields, rfl, hfields⟩ := known_of_validateAndCoerce h
  cases fields with
  | nil => rfl
  | cons f fields =>
    have := hfields f List.mem_cons_self
    rw [schemaFor, if_neg hname] at this
    cases this

/-! ### Secrets -/

/-- `REDACTED`. -/
def redacted : String := "****"

mutual

/-- `restore_secrets`. -/
def restoreSecrets : Value F → Value F → Value F
  | .object submitted, .object stored => .object (restoreFields submitted stored)
  | .array submitted, .array stored => .array (restoreItems submitted stored)
  | submitted, _ => submitted

/-- The fields of two objects, by key. -/
@[grind =]
def restoreFields : List (String × Value F) → List (String × Value F) → List (String × Value F)
  | [], _ => []
  | (k, child) :: submitted, stored =>
    let restored :=
      match lookup k stored with
      | none => child
      | some kept => if child.asStr = some redacted then kept else restoreSecrets child kept
    (k, restored) :: restoreFields submitted stored

/-- The items of two arrays, by position. -/
@[grind =] def restoreItems : List (Value F) → List (Value F) → List (Value F)
  | [], _ => []
  | item :: submitted, [] => item :: submitted
  | item :: submitted, kept :: stored =>
    restoreSecrets item kept :: restoreItems submitted stored

end

/-! ### The merged blob -/

/-- The update laid over the stored blob, field by field; none stands for the panic on a stored blob
that has no fields. -/
def mergeInto (current : Value F) : List (String × Value F) → Option (Value F)
  | [] => some current
  | (k, v) :: fields => (current.setField k v).bind fun current => mergeInto current fields

/-- `ALLOWED_SPECIFIERS`. -/
def allowedSpecifiers : List Char := "YmdFHMST%".toList

/-- `valid_timestamp_format`. -/
def validTimestampFormat : List Char → Bool
  | [] => true
  | [c] => c != '%'
  | c :: spec :: rest =>
    if c = '%' then allowedSpecifiers.contains spec && validTimestampFormat rest
    else validTimestampFormat (spec :: rest)

/-- `validate_watermark_blob`. -/
def validateWatermarkBlob (P : Platform F G) (blob : Value F) : Except String Unit := do
  let cfg ← (P.watermarkFromValue blob).mapError fun e => "watermark: " ++ e
  if cfg.enabled && (Text.trim cfg.text.toList).isEmpty && !cfg.showTimestamp then
    .error "watermark: enabled requires text or show_timestamp"
  else if validTimestampFormat cfg.timestampFormat.toList then
    .ok ()
  else
    .error ("watermark.timestamp_format only allows %Y %m %d %H %M %S %F %T %% and literals, got: "
      ++ cfg.timestampFormat)

end Config
