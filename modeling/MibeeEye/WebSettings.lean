/-
**The settings document, and the table it is read from.**

`GET /api/config` shows the table of settings as a document: `nest_dotted` of
`crates/web/src/routes/config_api.rs` makes an object of every part of a dotted key, and `PUT /api/config`
flattens such a document into rows again.  A table may have a key and keys that go on from it; the first is not
shown then.  And a key that begins with dots comes back without them.

Main definitions:

* `Config.parts`, `Config.nestRow`, `Config.nestDotted` — the document of a table;
* `Config.shownSettings` — what is shown;
* `Config.Covered` — another key goes on from the key.

Main results:

* `Config.nestDotted_eq` — the document is a tree of parts;
* `Config.flatten_nestDotted` — **the rows of the document are those of the table whose keys are not covered**;
* `Config.put_shown` — **putting back what was shown changes no setting**, whatever fails on the way.
-/

import MibeeEye.ConfigMerge
import MibeeEye.ConfigPut
import MibeeEye.WrittenTrees

set_option relaxedAutoImplicit false
set_option autoImplicit false

namespace Config

open Json (Value Floats)
open KeyTree (Doc Clash putAll put below standing)

variable {F G : Type}

/-! ### The document of a table -/

/-- `key.split('.')`. -/
def parts (key : String) : List String := (key.toList.splitOn '.').map String.ofList

/-- The object under a key; another value gives way to an empty one. -/
def objectUnder (part : String) (node : List (String × Value F)) : List (String × Value F) :=
  match Json.lookup part node with
  | some (.object fields) => fields
  | _ => []

/-- The loop over the parts of a key, and what is inserted under the last one. -/
@[grind =] def nestRow : List String → String → List (String × Value F) → List (String × Value F)
  | [], _, node => node
  | [last], value, node => Json.insert last (.string value) node
  | part :: next :: rest, value, node =>
      Json.insert part (.object (nestRow (next :: rest) value (objectUnder part node))) node

/-- `nest_dotted`. -/
def nestDotted (rows : List (String × String)) : Value F :=
  .object (rows.foldl (fun root r => nestRow (parts r.1) r.2 root) [])

/-- The settings of `get_config`: those of the scene are shown elsewhere. -/
def shownSettings (rows : List (String × String)) : Value F :=
  nestDotted (rows.filter fun r => !r.1.startsWith "scene.")

/-! ### The document is a tree -/

mutual

/-- A tree as a document. -/
def ofDoc : Doc String String → Value F
  | .leaf s => .string s
  | .node es => .object (ofEntries es)

/-- Entries as fields. -/
@[grind =] def ofEntries : List (String × Doc String String) → List (String × Value F)
  | [] => []
  | (k, t) :: es => (k, ofDoc t) :: ofEntries es

end

theorem lookup_ofEntries (k : String) (es : List (String × Doc String String)) :
    Json.lookup k (ofEntries es : List (String × Value F)) = (es.lookup k).map ofDoc := by
  induction es with
  | nil => rfl
  | cons e es ih =>
      obtain ⟨j, t⟩ := e
      rw [ofEntries, Json.lookup]
      by_cases hk : k = j
      · rw [if_pos hk.symm, hk, List.lookup_cons_self]
        rfl
      · rw [if_neg (Ne.symm hk), KeyTree.lookup_cons_of_ne hk, ih]

theorem insert_ofEntries (k : String) (t : Doc String String) (es : List (String × Doc String String)) :
    Json.insert k (ofDoc t) (ofEntries es : List (String × Value F)) =
      ofEntries (KeyTree.insert k t es) := by
  induction es with
  | nil => rfl
  | cons e es ih =>
      obtain ⟨j, u⟩ := e
      rw [ofEntries, Json.insert, KeyTree.insert, ih]
      split_ifs <;> rfl

theorem objectUnder_ofEntries (k : String) (es : List (String × Doc String String)) :
    objectUnder k (ofEntries es : List (String × Value F)) = ofEntries (below k es) := by
  rw [objectUnder, below, lookup_ofEntries]
  rcases es.lookup k with - | (s | fs) <;> rfl

theorem nestRow_ofEntries (p : List String) (value : String) (es : List (String × Doc String String)) :
    nestRow p value (ofEntries es : List (String × Value F)) = ofEntries (put p value es) := by
  induction p, value, es using KeyTree.put.induct with
  | case1 value es => rfl
  | case2 k value es => exact insert_ofEntries k (.leaf value) es
  | case3 k i p value es ih =>
      rw [nestRow, objectUnder_ofEntries, ih, put]
      exact insert_ofEntries k (.node _) es

/-- The rows of a table, each with the parts of its key. -/
def pathRows (rows : List (String × String)) : List (List String × String) :=
  rows.map fun r => (parts r.1, r.2)

/-- **The document is a tree of parts.** -/
theorem nestDotted_eq (rows : List (String × String)) :
    (nestDotted rows : Value F) = ofDoc (.node (putAll (pathRows rows) [])) := by
  have hfold : ∀ es : List (String × Doc String String),
      rows.foldl (fun root r => nestRow (parts r.1) r.2 root) (ofEntries es : List (String × Value F)) =
        ofEntries (putAll (pathRows rows) es) := by
    induction rows with
    | nil => exact fun es => rfl
    | cons r rows ih =>
        intro es
        rw [List.foldl_cons, nestRow_ofEntries, ih]
        rfl
  exact congrArg Value.object (hfold [])

mutual

/-- A tree is flattened into its leaves. -/
theorem flatten_ofDoc (fl : Floats F G) (path : String) : ∀ t : Doc String String,
    flattenToDotted fl path (ofDoc t) = t.leaves.map fun l => (l.1.foldl ConfigMerge.childPath path, l.2)
  | .leaf s => rfl
  | .node es => by
      rw [ofDoc, flattenToDotted, Doc.leaves]
      exact flatten_ofEntries fl path es

theorem flatten_ofEntries (fl : Floats F G) (path : String) : ∀ es : List (String × Doc String String),
    flattenFields fl path (ofEntries es) =
      (KeyTree.entryLeaves es).map fun l => (l.1.foldl ConfigMerge.childPath path, l.2)
  | [] => rfl
  | (k, t) :: es => by
      rw [ofEntries, flattenFields, KeyTree.entryLeaves, List.map_append, List.map_map,
        flatten_ofDoc fl _ t, flatten_ofEntries fl path es]
      rfl

end

/-! ### Keys and their parts -/

/-- A key without the dots that it begins with. -/
def withoutDots (key : String) : String := String.ofList (key.toList.dropWhile (· = '.'))

/-- The key goes on from another after a dot. -/
def GoesOn (key longer : String) : Prop := key.toList ++ ['.'] <+: longer.toList

instance (key longer : String) : Decidable (GoesOn key longer) :=
  inferInstanceAs (Decidable (_ <+: _))

/-- A key of the table goes on from the key. -/
def Covered (rows : List (String × String)) (key : String) : Prop := ∃ r ∈ rows, GoesOn key r.1

instance (rows : List (String × String)) : DecidablePred (Covered rows) := fun key =>
  inferInstanceAs (Decidable (∃ r ∈ rows, GoesOn key r.1))

variable {key longer : String} {rows : List (String × String)}

theorem parts_ne_nil (key : String) : parts key ≠ [] :=
  mt List.map_eq_nil_iff.1 (List.splitOn_ne_nil '.' key.toList)

theorem not_mem_splitOn {l : List Char} : ∀ m ∈ l.splitOn '.', '.' ∉ m := by
  induction l with
  | nil => simp
  | cons c l ih =>
      rw [List.splitOn_cons_eq_if_modifyHead]
      split
      · simpa using ih
      · next hc =>
          obtain ⟨m, ms, hsplit⟩ := List.exists_cons_of_ne_nil (List.splitOn_ne_nil '.' l)
          rw [hsplit] at ih ⊢
          obtain ⟨hm, hms⟩ := List.forall_mem_cons.1 ih
          refine List.forall_mem_cons.2 ⟨?_, hms⟩
          rw [List.mem_cons, not_or]
          exact ⟨fun h => hc (by simp [← h]), hm⟩

theorem dotFree_parts (key : String) : ∀ k ∈ parts key, '.' ∉ k.toList := by
  intro k hk
  obtain ⟨m, hm, rfl⟩ := List.mem_map.1 hk
  rw [String.toList_ofList]
  exact not_mem_splitOn m hm

/-- The parts make up the key. -/
theorem dotted_parts (key : String) : ConfigMerge.dotted (parts key) = key := by
  rw [ConfigMerge.dotted, ← String.toList_inj, String.toList_intercalate, parts, List.map_map]
  have hmap : (key.toList.splitOn '.').map (String.toList ∘ String.ofList) = key.toList.splitOn '.' :=
    List.map_id'' (fun l => String.toList_ofList) _
  rw [hmap]
  exact List.intercalate_splitOn '.'

theorem parts_injective : Function.Injective parts := fun k j h => by
  rw [← dotted_parts k, h, dotted_parts]

/-- **The parts of a key come first in those of another exactly when the other goes on from it.** -/
theorem prefix_parts : parts key <+: parts longer ↔ longer = key ∨ GoesOn key longer := by
  constructor
  · rintro ⟨p, hp⟩
    rcases eq_or_ne p [] with rfl | hne
    · rw [List.append_nil] at hp
      exact .inl (parts_injective hp).symm
    · right
      rw [GoesOn, ← dotted_parts longer, ← hp, ConfigMerge.dotted,
        String.intercalate_append_of_ne_nil (parts_ne_nil key) hne, ← ConfigMerge.dotted, dotted_parts,
        String.toList_append, String.toList_append]
      exact List.prefix_append _ _
  · rintro (rfl | ⟨rest, hrest⟩)
    · exact List.prefix_rfl
    · rw [parts, parts, ← hrest, List.append_assoc, List.singleton_append, List.splitOn_append_cons_self,
        List.map_append]
      exact List.prefix_append _ _

theorem lt_of_goesOn (h : GoesOn key longer) : key < longer := by
  obtain ⟨rest, hrest⟩ := h
  rw [String.lt_iff_toList_lt, ← hrest, List.append_assoc, List.singleton_append]
  induction key.toList with
  | nil => exact List.nil_lt_cons _ _
  | cons c l ih => exact List.cons_lt_cons_iff.2 (.inr ⟨rfl, ih⟩)

theorem dropWhile_dots {l : List Char} (h : l.head? ≠ some '.') : l.dropWhile (· = '.') = l := by
  cases l with
  | nil => rfl
  | cons c l =>
      refine List.dropWhile_cons_of_neg fun hc => h ?_
      rw [List.head?_cons, of_decide_eq_true hc]

/-- What the path of a key's parts is flattened to. -/
theorem foldl_parts (key : String) : (parts key).foldl ConfigMerge.childPath "" = withoutDots key := by
  have hpath : ∀ p : List String, (∀ k ∈ p, '.' ∉ k.toList) →
      p.foldl ConfigMerge.childPath "" = withoutDots (ConfigMerge.dotted p) := by
    intro p
    induction p with
    | nil => exact fun _ => rfl
    | cons k p ih =>
        intro hfree
        obtain ⟨hk, hp⟩ := List.forall_mem_cons.1 hfree
        by_cases hempty : k = ""
        · subst hempty
          rw [List.foldl_cons, show ConfigMerge.childPath "" "" = "" from rfl, ih hp]
          cases p with
          | nil => rfl
          | cons j p =>
              rw [withoutDots, withoutDots, ConfigMerge.dotted, ConfigMerge.dotted,
                String.intercalate_cons_cons, String.toList_append, String.toList_append]
              rfl
        · have hroot := ConfigMerge.foldl_childPath_root (k := k) (p := p) fun h => absurd h hempty
          have hhead : (ConfigMerge.dotted (k :: p)).toList.head? ≠ some '.' :=
            hroot ▸ ConfigMerge.head_foldl_childPath (by simp) hfree
          rw [hroot, withoutDots, dropWhile_dots hhead, String.ofList_toList]
  rw [hpath _ (dotFree_parts key), dotted_parts]

/-! ### What comes back -/

/-- The table is listed in the order of its keys. -/
def Listed (rows : List (String × String)) : Prop := rows.Pairwise fun r s => r.1 < s.1

instance : DecidablePred Listed := fun rows =>
  inferInstanceAs (Decidable (rows.Pairwise fun r s => r.1 < s.1))

/-- Of two keys in order, the parts clash exactly when the later one goes on from the other. -/
theorem clash_parts (h : key < longer) : Clash (parts key) (parts longer) ↔ GoesOn key longer := by
  rw [Clash, prefix_parts, prefix_parts]
  constructor
  · rintro ((rfl | hgoes) | (rfl | hgoes))
    · exact absurd h (lt_irrefl _)
    · exact hgoes
    · exact absurd h (lt_irrefl _)
    · exact absurd h (lt_asymm (lt_of_goesOn hgoes))
  · exact fun hgoes => .inl (.inr hgoes)

/-- In a table the rows that are left standing are those that no other key goes on from. -/
theorem standing_pathRows (h : Listed rows) :
    standing (pathRows rows) = pathRows (rows.filter fun r => ¬ Covered rows r.1) := by
  induction rows with
  | nil => rfl
  | cons r rows ih =>
      obtain ⟨hhead, htail⟩ := List.pairwise_cons.1 h
      have hclash : (∃ s ∈ pathRows rows, Clash (parts r.1) s.1) ↔ Covered (r :: rows) r.1 := by
        constructor
        · rintro ⟨s, hs, hclash⟩
          obtain ⟨x, hx, rfl⟩ := List.mem_map.1 hs
          exact ⟨x, List.mem_cons_of_mem r hx, (clash_parts (hhead x hx)).1 hclash⟩
        · rintro ⟨x, hx, hgoes⟩
          rcases List.mem_cons.1 hx with rfl | hx
          · exact absurd (lt_of_goesOn hgoes) (lt_irrefl _)
          · exact ⟨_, List.mem_map_of_mem hx, (clash_parts (hhead x hx)).2 hgoes⟩
      have hfilter : (rows.filter fun s => ¬ Covered (r :: rows) s.1) =
          rows.filter fun s => ¬ Covered rows s.1 := by
        refine List.filter_congr fun s hs => ?_
        have hiff : Covered (r :: rows) s.1 ↔ Covered rows s.1 := by
          rw [Covered, List.exists_mem_cons_iff]
          exact or_iff_right fun hgoes => lt_asymm (hhead s hs) (lt_of_goesOn hgoes)
        simp only [hiff]
      rw [show pathRows (r :: rows) = (parts r.1, r.2) :: pathRows rows from rfl, standing, ih htail,
        List.filter_cons, hfilter]
      by_cases hcovered : Covered (r :: rows) r.1
      · rw [if_pos (hclash.2 hcovered), if_neg (by simpa using hcovered)]
      · rw [if_neg (mt hclash.1 hcovered), if_pos (by simpa using hcovered)]
        rfl

/-- **The rows of the document are those of the table whose keys are not covered**, without the dots that
they begin with. -/
theorem flatten_nestDotted (fl : Floats F G) (h : Listed rows) :
    (flattenToDotted fl "" (nestDotted rows)).Perm
      ((rows.filter fun r => ¬ Covered rows r.1).map fun r => (withoutDots r.1, r.2)) := by
  have hpaths : ∀ r ∈ pathRows rows, r.1 ≠ [] := by
    intro r hr
    obtain ⟨s, -, rfl⟩ := List.mem_map.1 hr
    exact parts_ne_nil s.1
  rw [nestDotted_eq, flatten_ofDoc]
  refine ((KeyTree.leaves_putAll hpaths).map _).trans ?_
  rw [standing_pathRows h, pathRows, List.map_map]
  refine List.Perm.of_eq (List.map_congr_left fun r _ => ?_)
  exact Prod.ext (foldl_parts r.1) rfl

/-- A key and one that goes on from it: only the second is shown. -/
def coveredRows : List (String × String) :=
  [("ai", "on"), ("ai.interval_ms", "500"), ("theme", "dark")]

theorem flatten_coveredRows : (flattenToDotted wholeFloats "" (nestDotted coveredRows)).Perm
    ((coveredRows.filter fun r => ¬ Covered coveredRows r.1).map fun r => (withoutDots r.1, r.2)) :=
  flatten_nestDotted wholeFloats (by decide)

/-! ### Putting back what was shown -/

/-- The rows of `list_settings`: all that the table holds, in the order of the keys. -/
structure Lists (settings : String → Option String) (rows : List (String × String)) : Prop where
  listed : Listed rows
  mem_iff : ∀ key value, (key, value) ∈ rows ↔ settings key = some value

theorem withoutDots_eq (h : key.toList.head? ≠ some '.') : withoutDots key = key := by
  rw [withoutDots, dropWhile_dots h, String.ofList_toList]

/-- What the document is flattened into is in the table. -/
theorem mem_of_shown {fl : Floats F G} (h : Listed rows) (hdots : ∀ r ∈ rows, r.1.toList.head? ≠ some '.')
    {r : String × String} (hr : r ∈ flattenToDotted fl "" (shownSettings rows)) : r ∈ rows := by
  have hfiltered : Listed (rows.filter fun r => !r.1.startsWith "scene.") := h.sublist List.filter_sublist
  obtain ⟨s, hs, rfl⟩ := List.mem_map.1 ((flatten_nestDotted fl hfiltered).subset hr)
  have hmem := List.mem_of_mem_filter (List.mem_of_mem_filter hs)
  rw [withoutDots_eq (hdots s hmem)]
  exact hmem

/-- The rows of a settings section are those it is flattened into. -/
theorem mem_settingsPairs {P : Platform F G} {body : Value F} {fields : List (String × Value F)}
    (h : body.get "settings" = some (.object fields)) {r : String × String} (hr : r ∈ settingsPairs P body) :
    r ∈ flattenToDotted P.toFloats "" (.object fields) := by
  rw [settingsPairs, settingsPlan, h] at hr
  dsimp only at hr
  cases hknobs : aiKnobs P (flattenToDotted P.toFloats "" (.object fields)) (none, none) with
  | error r =>
      rw [hknobs] at hr
      cases hr
  | ok knobs =>
      rw [hknobs] at hr
      exact hr

/-- Without a scene, only rows of the settings section are written. -/
theorem mem_landedRows {P : Platform F G} {env : Env} {body : Value F} {d : Device F}
    (hscene : body.get "scene" = none) {r : String × String} (h : r ∈ landedRows P env body d) :
    r ∈ settingsPairs P body := by
  have hrows : sceneRows P body = [] := by rw [sceneRows, scenePlan, hscene]
  rw [landedRows, hrows, Writes.landing, ite_self, List.append_nil] at h
  exact (Writes.landing_sublist env.fails 0 _).subset h

/-- **Putting back what was shown changes no setting**, whatever fails on the way, as long as no key begins
with a dot. -/
theorem put_shown (P : Platform F G) (env : Env) {body : Value F} {d : Device F}
    (hlists : Lists d.settings rows) (hdots : ∀ r ∈ rows, r.1.toList.head? ≠ some '.')
    (hsettings : body.get "settings" = some (shownSettings rows)) (hscene : body.get "scene" = none) :
    (putConfig P env body d).1.settings = d.settings := by
  have hstored : ∀ r ∈ landedRows P env body d, d.settings r.1 = some r.2 := by
    intro r hr
    have hpairs := mem_landedRows hscene hr
    exact (hlists.mem_iff r.1 r.2).1 (mem_of_shown hlists.listed hdots (mem_settingsPairs hsettings hpairs))
  rw [putConfig_fst]
  funext key
  refine Writes.applyAll_induction (p := fun key o => o = d.settings key) (fun _ => rfl) ?_ key
  intro w hw
  obtain ⟨r, hr, rfl⟩ := List.mem_map.1 hw
  exact (hstored r hr).symm

theorem lists_lookup (h : Listed rows) : Lists (fun key => rows.lookup key) rows :=
  ⟨h, fun _ _ => ⟨fun hmem => KeyTree.Ascending.lookup_of_mem h hmem, KeyTree.mem_of_lookup⟩⟩

theorem put_coveredRows :
    (putConfig threeCharacters noFaults (.object [("settings", shownSettings coveredRows)])
      (deviceWith fun key => coveredRows.lookup key)).1.settings = fun key => coveredRows.lookup key :=
  put_shown threeCharacters noFaults (lists_lookup (by decide)) (by decide) rfl rfl

end Config
