/-
**Ways into a JSON document.**

A way into a document goes from a value to the value of one of its fields, or to one of its items, and on
from there.  A document has no key twice.

Main definitions:

* `Json.Step`, `Json.Value.child`, `Json.Value.find` — ways, and where they lead;
* `Json.Value.IsLeaf` — values that are neither objects nor arrays;
* `Json.Value.Distinct`, `Json.Document` — values with no key twice.

Main results:

* `Json.Value.induction` — **the induction rule** for values;
* `Json.lookup_of_mem` — a field is found under its key.
-/

import MibeeEye.JsonValue

set_option relaxedAutoImplicit false
set_option autoImplicit false

namespace Json

variable {F : Type}

/-! ### Induction -/

/-- **The induction rule** for values. -/
@[elab_as_elim]
theorem Value.induction {P : Value F → Prop} (null : P .null) (bool : ∀ b, P (.bool b))
    (number : ∀ n, P (.number n)) (string : ∀ s, P (.string s))
    (array : ∀ items, (∀ v ∈ items, P v) → P (.array items))
    (object : ∀ fields, (∀ f ∈ fields, P f.2) → P (.object fields)) (v : Value F) : P v :=
  @Value.rec F P (fun items => ∀ v ∈ items, P v) (fun fields => ∀ f ∈ fields, P f.2) (fun f => P f.2)
    null bool number string array object
    (fun _ h => absurd h List.not_mem_nil)
    (fun _ _ hv hitems => List.forall_mem_cons.mpr ⟨hv, hitems⟩)
    (fun _ h => absurd h List.not_mem_nil)
    (fun _ _ hf hfields => List.forall_mem_cons.mpr ⟨hf, hfields⟩)
    (fun _ _ hv => hv) v

/-! ### Ways -/

/-- To the value of a field, or to an item. -/
inductive Step where
  | key (k : String)
  | index (i : ℕ)
  deriving DecidableEq, Repr

/-- The value that is one step away. -/
def Value.child : Step → Value F → Option (Value F)
  | .key k, v => v.get k
  | .index i, v => v.asArray.bind fun items => items[i]?

/-- The value at the end of a way. -/
def Value.find : List Step → Value F → Option (Value F)
  | [], v => some v
  | s :: p, v => (v.child s).bind (find p)

/-- The value is neither an object nor an array. -/
def Value.IsLeaf : Value F → Prop
  | .array _ | .object _ => False
  | _ => True

/-- The way ends with the value of a field. -/
def EndsInKey (p : List Step) : Prop := ∃ k, p.getLast? = some (.key k)

variable {s : Step} {p : List Step} {v w : Value F} {k : String} {fields : List (String × Value F)}

@[simp] theorem Value.find_nil (v : Value F) : v.find [] = some v := rfl

theorem Value.find_cons : v.find (s :: p) = (v.child s).bind (Value.find p) := rfl

theorem Value.isLeaf_string (text : String) : (Value.string text : Value F).IsLeaf := trivial

theorem Value.IsLeaf.child (h : v.IsLeaf) (s : Step) : v.child s = none := by
  cases v with
  | array items => exact h.elim
  | object fields => exact h.elim
  | _ => cases s <;> rfl

theorem Value.IsLeaf.find_cons (h : v.IsLeaf) : v.find (s :: p) = none := by
  rw [Value.find_cons, h.child, Option.bind_none]

theorem Value.child_object_index (i : ℕ) : (Value.object fields).child (.index i) = none := rfl

theorem Value.child_array_key (items : List (Value F)) : (Value.array items).child (.key k) = none := rfl

theorem not_endsInKey_nil : ¬ EndsInKey [] := fun ⟨_, h⟩ => by cases h

theorem EndsInKey.cons (h : EndsInKey p) : EndsInKey (s :: p) := by
  obtain ⟨k, hk⟩ := h
  exact ⟨k, by rw [List.getLast?_cons, hk]; rfl⟩

theorem EndsInKey.of_cons (h : EndsInKey (s :: p)) : EndsInKey p ∨ p = [] ∧ ∃ k, s = .key k := by
  obtain ⟨k, hk⟩ := h
  cases p with
  | nil => exact .inr ⟨rfl, k, Option.some.inj hk⟩
  | cons s' p => exact .inl ⟨k, by rwa [List.getLast?_cons_cons] at hk⟩

/-! ### Keys -/

/-- No object in the value has a key twice. -/
inductive Value.Distinct : Value F → Prop
  | leaf {v : Value F} (h : v.IsLeaf) : Distinct v
  | array {items : List (Value F)} (h : ∀ v ∈ items, Distinct v) : Distinct (.array items)
  | object {fields : List (String × Value F)} (hkeys : (fields.map Prod.fst).Nodup)
      (h : ∀ f ∈ fields, Distinct f.2) : Distinct (.object fields)

theorem Value.Distinct.of_array {items : List (Value F)} (h : (Value.array items).Distinct) :
    ∀ v ∈ items, v.Distinct := by
  cases h with
  | leaf h => exact h.elim
  | array h => exact h

theorem Value.Distinct.of_object (h : (Value.object fields).Distinct) :
    (fields.map Prod.fst).Nodup ∧ ∀ f ∈ fields, f.2.Distinct := by
  cases h with
  | leaf h => exact h.elim
  | object hkeys h => exact ⟨hkeys, h⟩

/-- A document. -/
@[ext] structure Document (F : Type) where
  value : Value F
  distinct : value.Distinct

/-- A field is found under its key. -/
theorem lookup_of_mem (hkeys : (fields.map Prod.fst).Nodup) (h : (k, v) ∈ fields) :
    lookup k fields = some v := by
  induction fields with
  | nil => cases h
  | cons f fields ih =>
      rw [List.map_cons, List.nodup_cons] at hkeys
      rw [lookup]
      rcases List.mem_cons.mp h with rfl | h
      · exact if_pos rfl
      · rw [if_neg, ih hkeys.2 h]
        exact fun heq => hkeys.1 (heq ▸ List.mem_map_of_mem h)

/-- What is found under a key is a field. -/
theorem mem_of_lookup (h : lookup k fields = some v) : (k, v) ∈ fields := by
  induction fields with
  | nil => cases h
  | cons f fields ih =>
      rw [lookup] at h
      split at h
      · next hk =>
        obtain rfl := Option.some.inj h
        exact hk ▸ List.mem_cons_self
      · exact List.mem_cons_of_mem f (ih h)

end Json
