/-
**Placeholders for secrets.**

The configuration is read with four asterisks for every secret, and where they are written back, the secret
that is stored is kept.  `redact_secrets` of `crates/web/src/routes/config_api.rs` finds a secret by the name
of its key; `restore_secrets` finds a placeholder by its text, and goes through a stored document alongside,
by keys and positions.

Main definitions:

* `Config.isSecret`, `Config.redactSecrets` — the keys of secrets, and a document without them;
* `Config.SameOpen` — documents that differ only in secrets;
* `Config.UnderSecret` — ways that lead through the key of a secret.

Main results:

* `Config.child_restoreSecrets` — what is restored, step by step;
* `Config.restore_redact` — what was redacted is restored;
* `Config.redact_congr` — nothing is read of a secret;
* `Config.find_restore_of_leaf`, `Config.placeholder_of_restore` — what becomes of the leaves of a document,
  and which placeholders are left;
* `Config.placeholder_laws` — **all of it together**.
-/

import MibeeEye.ConfigProtocols
import MibeeEye.JsonPath

set_option relaxedAutoImplicit false
set_option autoImplicit false

namespace Config

open Json

variable {F : Type}

/-! ### Redaction -/

/-- `SECRET_KEYS` -/
def secretKeys : List String := ["password", "push_url", "api_key"]

/-- A key of `SECRET_KEYS`, in whatever case. -/
def isSecret (key : String) : Bool := secretKeys.contains (Text.toAsciiLowercase key)

/-- A value that is neither null nor empty. -/
def isSet : Value F → Bool
  | .null => false
  | v => v.asStr != some ""

mutual

/-- `redact_secrets` -/
def redactSecrets : Value F → Value F
  | .object fields => .object (redactFields fields)
  | .array items => .array (redactItems items)
  | v => v

@[grind =] def redactFields : List (String × Value F) → List (String × Value F)
  | [] => []
  | (key, child) :: fields =>
    (key, if isSecret key && isSet child then .string redacted else redactSecrets child) ::
      redactFields fields

@[grind =] def redactItems : List (Value F) → List (Value F)
  | [] => []
  | item :: items => redactSecrets item :: redactItems items

end

mutual

/-- Documents that are the same but for what is set under the keys of secrets. -/
def SameOpen : Value F → Value F → Prop
  | .object fields, .object others => SameFields fields others
  | .array items, .array others => SameItems items others
  | v, w => v = w

def SameFields : List (String × Value F) → List (String × Value F) → Prop
  | [], [] => True
  | (key, child) :: fields, (other, value) :: others =>
    key = other ∧ ((isSecret key ∧ isSet child ∧ isSet value) ∨ SameOpen child value) ∧
      SameFields fields others
  | _, _ => False

def SameItems : List (Value F) → List (Value F) → Prop
  | [], [] => True
  | item :: items, other :: others => SameOpen item other ∧ SameItems items others
  | _, _ => False

end

/-- The way leads through the key of a secret. -/
def UnderSecret (p : List Step) : Prop := ∃ k, Step.key k ∈ p ∧ isSecret k

/-- What is made of a value one step into a document, with what is stored in its place. -/
def restoreChild : Step → Value F → Option (Value F) → Value F
  | _, child, none => child
  | .key _, child, some kept => if child.asStr = some redacted then kept else restoreSecrets child kept
  | .index _, child, some kept => restoreSecrets child kept

/-! ### Step by step -/

section Steps

variable {d t v w x kept : Value F} {p : List Step} {k : String}
  {fields stored : List (String × Value F)} {items others : List (Value F)}

theorem redactSecrets_of_leaf (h : v.IsLeaf) : redactSecrets v = v := by
  cases v with
  | array items => exact h.elim
  | object fields => exact h.elim
  | _ => rfl

theorem restoreSecrets_of_leaf (h : d.IsLeaf) (t : Value F) : restoreSecrets d t = d := by
  cases d with
  | array items => exact h.elim
  | object fields => exact h.elim
  | _ => rfl

theorem lookup_restoreFields (k : String) (fields stored : List (String × Value F)) :
    lookup k (restoreFields fields stored) =
      (lookup k fields).map fun child => restoreChild (.key k) child (lookup k stored) := by
  induction fields with
  | nil => rfl
  | cons f fields ih =>
      obtain ⟨key, child⟩ := f
      rw [restoreFields, lookup, lookup, ih]
      by_cases hkey : key = k
      · rw [if_pos hkey, if_pos hkey, Option.map_some, hkey]
        cases lookup k stored with
        | none => rfl
        | some kept => rfl
      · rw [if_neg hkey, if_neg hkey]

theorem getElem?_restoreItems (items others : List (Value F)) (i : ℕ) :
    (restoreItems items others)[i]? =
      items[i]?.map fun child => restoreChild (.index i) child others[i]? := by
  induction items generalizing others i with
  | nil => rfl
  | cons item items ih =>
      cases others with
      | nil =>
          rw [restoreItems, List.getElem?_nil]
          cases (item :: items)[i]? <;> rfl
      | cons kept others =>
          rw [restoreItems]
          cases i with
          | zero => rfl
          | succ i =>
              simp only [List.getElem?_cons_succ, ih]
              cases others[i]? <;> rfl

/-- **What is restored**, step by step. -/
theorem child_restoreSecrets (s : Step) (d t : Value F) :
    (restoreSecrets d t).child s = (d.child s).map fun child => restoreChild s child (t.child s) := by
  have hnone : t.child s = none → (restoreSecrets d t = d) →
      (restoreSecrets d t).child s = (d.child s).map fun child => restoreChild s child (t.child s) := by
    intro ht hd
    rw [hd, ht]
    cases d.child s <;> rfl
  cases d with
  | object fields =>
      cases t with
      | object stored =>
          cases s with
          | key k => exact lookup_restoreFields k fields stored
          | index i => rfl
      | array others =>
          cases s with
          | key k => exact hnone rfl rfl
          | index i => rfl
      | _ => exact hnone (by cases s <;> rfl) rfl
  | array items =>
      cases t with
      | array others =>
          cases s with
          | key k => rfl
          | index i => exact getElem?_restoreItems items others i
      | object stored =>
          cases s with
          | key k => rfl
          | index i => exact hnone rfl rfl
      | _ => exact hnone (by cases s <;> rfl) rfl
  | _ => cases s <;> rfl

/-! ### Leaves -/

theorem eq_string_of_asStr {text : String} (h : v.asStr = some text) : v = .string text := by
  cases v with
  | string s => exact congrArg Value.string (Option.some.inj h)
  | _ => cases h

/-- **A leaf stays as it was submitted**, unless it is a placeholder under a key in whose place something is
stored. -/
theorem find_restore_of_leaf (hx : d.find p = some x) (hleaf : x.IsLeaf)
    (h : x ≠ .string redacted ∨ t.find p = none ∨ ¬ EndsInKey p) :
    (restoreSecrets d t).find p = some x := by
  induction p generalizing d t with
  | nil =>
      obtain rfl := Option.some.inj hx
      rw [restoreSecrets_of_leaf hleaf, Value.find_nil]
  | cons s p ih =>
      rw [Value.find_cons] at hx ⊢
      obtain ⟨child, hchild, hx⟩ := Option.bind_eq_some_iff.mp hx
      rw [child_restoreSecrets, hchild, Option.map_some, Option.bind_some]
      cases hkept : t.child s with
      | none => exact hx
      | some kept =>
          rw [Value.find_cons, hkept, Option.bind_some] at h
          have hrest : (restoreSecrets child kept).find p = some x := by
            refine ih hx ?_
            rcases h with hne | hnone | hend
            · exact .inl hne
            · exact .inr (.inl hnone)
            · exact .inr (.inr fun hp => hend hp.cons)
          cases s with
          | index i => exact hrest
          | key k =>
              rw [restoreChild]
              split
              · next hplaceholder =>
                -- the placeholder itself is the leaf
                obtain rfl := eq_string_of_asStr hplaceholder
                exfalso
                cases p with
                | nil =>
                    obtain rfl := Option.some.inj hx
                    rcases h with hne | hnone | hend
                    · exact hne rfl
                    · cases hnone
                    · exact hend ⟨k, rfl⟩
                | cons s p =>
                    rw [(Value.isLeaf_string redacted).find_cons] at hx
                    cases hx
              · exact hrest

theorem eq_string_of_restore {text : String} (h : restoreSecrets d t = .string text) : d = .string text := by
  cases d with
  | object fields => cases t <;> cases h
  | array items => cases t <;> cases h
  | _ => exact h

/-- **Which placeholders are left**: those in whose place nothing is stored or that are items of an array, and
those that are stored. -/
theorem placeholder_of_restore (h : (restoreSecrets d t).find p = some (.string redacted)) :
    (d.find p = some (.string redacted) ∧ (t.find p = none ∨ ¬ EndsInKey p)) ∨
      t.find p = some (.string redacted) := by
  induction p generalizing d t with
  | nil => exact .inl ⟨congrArg some (eq_string_of_restore (Option.some.inj h)), .inr not_endsInKey_nil⟩
  | cons s p ih =>
      rw [Value.find_cons, child_restoreSecrets] at h
      rw [Value.find_cons, Value.find_cons]
      obtain ⟨restored, hrestored, h⟩ := Option.bind_eq_some_iff.mp h
      obtain ⟨child, hchild, rfl⟩ := Option.map_eq_some_iff.mp hrestored
      rw [hchild, Option.bind_some]
      cases hkept : t.child s with
      | none =>
          rw [hkept] at h
          exact .inl ⟨h, .inl rfl⟩
      | some kept =>
          rw [hkept] at h
          rw [Option.bind_some]
          have hrest (hgoes : (restoreSecrets child kept).find p = some (.string redacted))
              (hplace : ∀ k, s = .key k → child.asStr ≠ some redacted) :
              (child.find p = some (.string redacted) ∧ (kept.find p = none ∨ ¬ EndsInKey (s :: p))) ∨
                kept.find p = some (.string redacted) := by
            refine (ih hgoes).imp_left fun ⟨hfind, hnot⟩ => ⟨hfind, hnot.imp_right fun hend hp => ?_⟩
            rcases hp.of_cons with hp | ⟨rfl, k, rfl⟩
            · exact hend hp
            · rw [Option.some.inj hfind] at hplace
              exact hplace k rfl rfl
          cases s with
          | index i => exact hrest h fun k hk => by cases hk
          | key k =>
              rw [restoreChild] at h
              split at h
              · exact .inr h
              · next hplace => exact hrest h fun _ _ => hplace

/-! ### Redacted documents -/

theorem restoreItems_redactItems (h : ∀ v ∈ items, restoreSecrets (redactSecrets v) v = v) :
    restoreItems (redactItems items) items = items := by
  induction items with
  | nil => rfl
  | cons item items ih =>
      rw [List.forall_mem_cons] at h
      rw [redactItems, restoreItems, h.1, ih h.2]

theorem restoreFields_redactFields
    (h : ∀ f ∈ fields, lookup f.1 stored = some f.2 ∧ restoreSecrets (redactSecrets f.2) f.2 = f.2) :
    restoreFields (redactFields fields) stored = fields := by
  induction fields with
  | nil => rfl
  | cons f fields ih =>
      obtain ⟨key, child⟩ := f
      rw [List.forall_mem_cons] at h
      obtain ⟨⟨hkept, hchild⟩, h⟩ := h
      rw [redactFields, restoreFields, ih h]
      simp only at hkept hchild ⊢
      rw [hkept]
      simp only
      cases isSecret key && isSet child with
      | true => rfl
      | false =>
          rw [if_neg Bool.false_ne_true]
          split
          · rfl
          · rw [hchild]

/-- **What was redacted is restored**, where it was read. -/
theorem restore_redact (h : v.Distinct) : restoreSecrets (redactSecrets v) v = v := by
  induction v using Value.induction with
  | array items ih =>
      exact congrArg Value.array (restoreItems_redactItems fun v hv => ih v hv (h.of_array v hv))
  | object fields ih =>
      obtain ⟨hkeys, h⟩ := h.of_object
      exact congrArg Value.object (restoreFields_redactFields fun f hf =>
        ⟨lookup_of_mem hkeys hf, ih f hf (h f hf)⟩)
  | _ => rfl

theorem isSet_congr (h : SameOpen v w) : isSet v = isSet w := by
  cases v with
  | object fields => cases w <;> first | rfl | cases h
  | array items => cases w <;> first | rfl | cases h
  | _ => exact congrArg isSet h

theorem redactItems_congr (h : ∀ v ∈ items, ∀ w, SameOpen v w → redactSecrets v = redactSecrets w)
    (hsame : SameItems items others) : redactItems items = redactItems others := by
  induction items generalizing others with
  | nil =>
      cases others with
      | nil => rfl
      | cons other others => exact hsame.elim
  | cons item items ih =>
      cases others with
      | nil => exact hsame.elim
      | cons other others =>
          rw [List.forall_mem_cons] at h
          rw [redactItems, redactItems, h.1 other hsame.1, ih h.2 hsame.2]

theorem redactFields_congr (h : ∀ f ∈ fields, ∀ w, SameOpen f.2 w → redactSecrets f.2 = redactSecrets w)
    (hsame : SameFields fields stored) : redactFields fields = redactFields stored := by
  induction fields generalizing stored with
  | nil =>
      cases stored with
      | nil => rfl
      | cons other stored => exact hsame.elim
  | cons f fields ih =>
      cases stored with
      | nil => exact hsame.elim
      | cons other stored =>
          obtain ⟨key, child⟩ := f
          obtain ⟨other, value⟩ := other
          rw [List.forall_mem_cons] at h
          obtain ⟨rfl, hchild, hsame⟩ := hsame
          have hshown : (if isSecret key && isSet child then .string redacted else redactSecrets child) =
              if isSecret key && isSet value then .string redacted else redactSecrets value := by
            rcases hchild with ⟨hkey, hset, hset'⟩ | hchild
            · rw [hkey, hset, hset']
              rfl
            · rw [h.1 value hchild, isSet_congr hchild]
          rw [redactFields, redactFields, ih h.2 hsame, hshown]

/-- **Nothing is read of a secret.** -/
theorem redact_congr (h : SameOpen v w) : redactSecrets v = redactSecrets w := by
  induction v using Value.induction generalizing w with
  | array items ih =>
      cases w with
      | array others => exact congrArg Value.array (redactItems_congr (fun v hv w => ih v hv) h)
      | _ => cases h
  | object fields ih =>
      cases w with
      | object others => exact congrArg Value.object (redactFields_congr (fun f hf w => ih f hf) h)
      | _ => cases h
  | _ => exact congrArg redactSecrets h

/-! ### Keys -/

theorem map_fst_redactFields (fields : List (String × Value F)) :
    (redactFields fields).map Prod.fst = fields.map Prod.fst := by
  induction fields with
  | nil => rfl
  | cons f fields ih => exact congrArg (List.cons f.1) ih

theorem map_fst_restoreFields (fields stored : List (String × Value F)) :
    (restoreFields fields stored).map Prod.fst = fields.map Prod.fst := by
  induction fields with
  | nil => rfl
  | cons f fields ih => exact congrArg (List.cons f.1) ih

theorem distinct_redactItems (h : ∀ v ∈ items, (redactSecrets v).Distinct) :
    ∀ v ∈ redactItems items, v.Distinct := by
  induction items with
  | nil => exact fun v hv => absurd hv List.not_mem_nil
  | cons item items ih =>
      rw [List.forall_mem_cons] at h
      exact List.forall_mem_cons.mpr ⟨h.1, ih h.2⟩

theorem distinct_redactFields (h : ∀ f ∈ fields, (redactSecrets f.2).Distinct) :
    ∀ f ∈ redactFields fields, f.2.Distinct := by
  induction fields with
  | nil => exact fun f hf => absurd hf List.not_mem_nil
  | cons f fields ih =>
      rw [List.forall_mem_cons] at h
      refine List.forall_mem_cons.mpr ⟨?_, ih h.2⟩
      simp only
      split
      · exact .leaf (Value.isLeaf_string redacted)
      · exact h.1

/-- Redaction makes no key occur twice. -/
theorem distinct_redact (h : v.Distinct) : (redactSecrets v).Distinct := by
  induction v using Value.induction with
  | array items ih => exact .array (distinct_redactItems fun v hv => ih v hv (h.of_array v hv))
  | object fields ih =>
      obtain ⟨hkeys, h⟩ := h.of_object
      exact .object (map_fst_redactFields fields ▸ hkeys) (distinct_redactFields fun f hf => ih f hf (h f hf))
  | _ => exact h

theorem distinct_restoreItems
    (h : ∀ v ∈ items, v.Distinct ∧ ∀ t : Value F, t.Distinct → (restoreSecrets v t).Distinct)
    (hothers : ∀ t ∈ others, t.Distinct) : ∀ v ∈ restoreItems items others, v.Distinct := by
  induction items generalizing others with
  | nil => exact fun v hv => absurd hv List.not_mem_nil
  | cons item items ih =>
      cases others with
      | nil => exact fun v hv => (h v hv).1
      | cons other others =>
          rw [List.forall_mem_cons] at h hothers
          exact List.forall_mem_cons.mpr ⟨h.1.2 other hothers.1, ih h.2 hothers.2⟩

theorem distinct_restoreFields
    (h : ∀ f ∈ fields, f.2.Distinct ∧ ∀ t : Value F, t.Distinct → (restoreSecrets f.2 t).Distinct)
    (hstored : ∀ f ∈ stored, f.2.Distinct) : ∀ f ∈ restoreFields fields stored, f.2.Distinct := by
  induction fields with
  | nil => exact fun f hf => absurd hf List.not_mem_nil
  | cons f fields ih =>
      obtain ⟨key, child⟩ := f
      rw [List.forall_mem_cons] at h
      refine List.forall_mem_cons.mpr ⟨?_, ih h.2⟩
      simp only
      split
      · exact h.1.1
      · next kept hkept =>
        have hdistinct := hstored _ (mem_of_lookup hkept)
        split
        · exact hdistinct
        · exact h.1.2 kept hdistinct

/-- Restoration makes no key occur twice. -/
theorem distinct_restore (hd : d.Distinct) (ht : t.Distinct) : (restoreSecrets d t).Distinct := by
  induction d using Value.induction generalizing t with
  | array items ih =>
      cases t with
      | array others =>
          exact .array (distinct_restoreItems
            (fun v hv => ⟨hd.of_array v hv, fun t => ih v hv (hd.of_array v hv)⟩) ht.of_array)
      | _ => exact hd
  | object fields ih =>
      cases t with
      | object stored =>
          obtain ⟨hkeys, hfields⟩ := hd.of_object
          exact .object (map_fst_restoreFields fields stored ▸ hkeys) (distinct_restoreFields
            (fun f hf => ⟨hfields f hf, fun t => ih f hf (hfields f hf)⟩) ht.of_object.2)
      | _ => exact hd
  | _ => exact hd

end Steps

/-! ### Documents -/

/-- A document, redacted. -/
def redactDocument (s : Document F) : Document F := ⟨redactSecrets s.value, distinct_redact s.distinct⟩

/-- A submitted document, with what is stored. -/
def restoreDocument (d s : Document F) : Document F :=
  ⟨restoreSecrets d.value s.value, distinct_restore d.distinct s.distinct⟩

/-- A redacted document is restored where it was read, and does not depend on what is set under the keys of
secrets.  In a document that is restored, a leaf is as submitted unless it is a placeholder under a key in
whose place something is stored, and a placeholder under the key of a secret is one in whose place nothing
is stored or that is an item of an array, or is stored itself. -/
theorem placeholder_laws (s : Document F) :
    restoreDocument (redactDocument s) s = s ∧
    (∀ s' : Document F, SameOpen s.value s'.value → redactDocument s = redactDocument s') ∧
    ∀ (d : Document F) (p : List Step),
      (∀ x, d.value.find p = some x → x.IsLeaf →
        x ≠ .string redacted ∨ s.value.find p = none ∨ ¬ EndsInKey p →
        (restoreDocument d s).value.find p = some x) ∧
      (UnderSecret p → (restoreDocument d s).value.find p = some (.string redacted) →
        (d.value.find p = some (.string redacted) ∧ (s.value.find p = none ∨ ¬ EndsInKey p)) ∨
          s.value.find p = some (.string redacted)) :=
  ⟨Document.ext (restore_redact s.distinct), fun _ h => Document.ext (redact_congr h),
    fun _ _ => ⟨fun _ => find_restore_of_leaf, fun _ => placeholder_of_restore⟩⟩

/-- An object with one field, a text. -/
def oneField (key text : String) : Document ℤ :=
  ⟨.object [(key, .string text)], .object (by simp) (by
    rw [List.forall_mem_singleton]
    exact .leaf (Value.isLeaf_string text))⟩

/-- A text under a key that is no secret's is not kept, and a placeholder for a secret is left. -/
theorem not_placeholder_laws :
    (¬ ∀ (s d : Document ℤ) (p : List Step) (k : String) (x : Value ℤ), isSecret k = false →
      d.value.find (p ++ [.key k]) = some x → x.IsLeaf →
      (restoreDocument d s).value.find (p ++ [.key k]) = some x) ∧
    ¬ ∀ (s d : Document ℤ) (p : List Step) (k : String), isSecret k →
      (restoreDocument d s).value.find (p ++ [.key k]) ≠ some (.string redacted) := by
  constructor
  · intro h
    have hkept := h (oneField "device_id" "cam-1") (oneField "device_id" redacted) [] "device_id"
      (.string redacted) (by decide) rfl (Value.isLeaf_string redacted)
    have htext : "cam-1" = redacted := Value.string.inj (Option.some.inj hkept)
    exact absurd htext (by decide)
  · intro h
    exact h (oneField "device_id" "cam-1") (oneField "password" redacted) [] "password" (by decide) rfl

end Config
