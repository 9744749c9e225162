/-
**Text as a list of characters.**

The text protocols take their lines apart with the string functions of the Rust standard library.
A string is handled here as the list of its Unicode scalar values; positions never show, since a
function that looks for a character is followed by a cut at that character.

Main definitions:

* `Text.isWhitespace`, `Text.trim` — the characters with the property `White_Space`, and their
  removal at both ends;
* `Text.splitOnce` — the text before and after the first character of a kind;
* `Text.trimStartMatches`, `Text.trimEndMatches`, `Text.cutAt`, `Text.cutBehind` — patterns;
* `Text.withoutWhitespace` — a text without its white space;
* `Text.linesIncl`, `Text.lines` — the lines of a text, with and without their ends;
* `Text.parseUnsigned` — numbers;
* `Text.xorAll` — the exclusive or of all bytes.

Main results:

* `Text.length_trim_le`, `Text.length_splitOnce` — what a cut leaves is shorter;
* `Text.foldl_xor_zip` — **folding the differences of two byte strings compares their sums**.
-/

import MibeeEye.Utf8
import Mathlib.Data.List.DropRight

set_option relaxedAutoImplicit false
set_option autoImplicit false

namespace Text

/-! ### White space -/

/-- `char::is_whitespace`: the property `White_Space`. -/
def isWhitespace (c : Char) : Bool :=
  let n := c.toNat
  (0x09 ≤ n && n ≤ 0x0D) || n == 0x20 || n == 0x85 || n == 0xA0 || n == 0x1680 ||
    (0x2000 ≤ n && n ≤ 0x200A) || n == 0x2028 || n == 0x2029 || n == 0x202F || n == 0x205F ||
    n == 0x3000

/-- `str::trim`. -/
def trim (s : List Char) : List Char := (s.dropWhile isWhitespace).rdropWhile isWhitespace

theorem length_trim_le (s : List Char) : (trim s).length ≤ s.length :=
  ((List.rdropWhile_prefix isWhitespace _).length_le).trans (List.dropWhile_suffix _).length_le

/-- A text without its white space. -/
def withoutWhitespace (s : List Char) : List Char := s.filter fun c => !isWhitespace c

@[simp] theorem withoutWhitespace_nil : withoutWhitespace [] = [] := rfl

@[simp] theorem withoutWhitespace_append (a b : List Char) :
    withoutWhitespace (a ++ b) = withoutWhitespace a ++ withoutWhitespace b := List.filter_append ..

theorem withoutWhitespace_eq_nil {s : List Char} (h : ∀ c ∈ s, isWhitespace c = true) :
    withoutWhitespace s = [] := by
  rw [withoutWhitespace, List.filter_eq_nil_iff]
  intro c hc
  simp [h c hc]

theorem withoutWhitespace_eq_self {s : List Char} (h : ∀ c ∈ s, isWhitespace c = false) :
    withoutWhitespace s = s := by
  rw [withoutWhitespace, List.filter_eq_self]
  intro c hc
  simp [h c hc]

/-- Trimming takes away white space only. -/
@[simp] theorem withoutWhitespace_trim (s : List Char) :
    withoutWhitespace (trim s) = withoutWhitespace s := by
  have hleft : withoutWhitespace (s.dropWhile isWhitespace) = withoutWhitespace s := by
    conv_rhs => rw [← @List.takeWhile_append_dropWhile _ isWhitespace s, withoutWhitespace_append]
    rw [withoutWhitespace_eq_nil fun c hc => List.mem_takeWhile_imp hc, List.nil_append]
  have hright : ∀ t : List Char,
      withoutWhitespace (t.rdropWhile isWhitespace) = withoutWhitespace t := by
    intro t
    induction t using List.reverseRecOn with
    | nil => rfl
    | append_singleton t c ih =>
        by_cases hc : isWhitespace c = true
        · have hblank : withoutWhitespace [c] = [] :=
            withoutWhitespace_eq_nil fun d hd => List.mem_singleton.1 hd ▸ hc
          rw [List.rdropWhile_concat_pos _ _ _ hc, ih, withoutWhitespace_append, hblank,
            List.append_nil]
        · rw [List.rdropWhile_concat_neg _ _ _ hc]
  rw [trim, hright, hleft]

/-- White space at the end is trimmed away. -/
theorem trim_concat (s : List Char) {c : Char} (hc : isWhitespace c = true) :
    trim (s ++ [c]) = trim s := by
  rw [trim, trim, List.dropWhile_append]
  split
  · rename_i hblank
    rw [List.isEmpty_iff.1 hblank, List.dropWhile_cons_of_pos hc, List.dropWhile_nil]
  · rw [List.rdropWhile_concat_pos _ _ _ hc]

/-! ### Cuts -/

/-- `str::split_once`: the text before and after the first character of a kind. -/
@[grind =] def splitOnce (p : Char → Bool) : List Char → Option (List Char × List Char)
  | [] => none
  | c :: s => if p c then some ([], s) else (splitOnce p s).map fun r => (c :: r.1, r.2)

theorem length_splitOnce {p : Char → Bool} {s a b : List Char} (h : splitOnce p s = some (a, b)) :
    a.length + b.length + 1 = s.length := by
  induction s generalizing a with
  | nil => cases h
  | cons c s ih =>
      simp only [splitOnce] at h
      split at h
      · cases h
        simp
      · obtain ⟨⟨x, y⟩, hr, heq⟩ := Option.map_eq_some_iff.1 h
        cases heq
        have hlength : x.length + y.length + 1 = s.length := ih hr
        simp only [List.length_cons]
        change x.length + 1 + y.length + 1 = s.length + 1
        omega

theorem splitOnce_append {p : Char → Bool} {a : List Char} {c : Char} (ha : ∀ x ∈ a, p x = false)
    (hc : p c = true) (b : List Char) : splitOnce p (a ++ c :: b) = some (a, b) := by
  induction a with
  | nil => simp [splitOnce, hc]
  | cons x a ih =>
      simp only [List.mem_cons, forall_eq_or_imp] at ha
      simp [splitOnce, ha.1, ih ha.2]

/-- `s.strip_prefix(p).unwrap_or(s)`. -/
def dropPrefix (p s : List Char) : List Char := (s.dropPrefix? p).getD s

theorem length_dropPrefix_le (p s : List Char) : (dropPrefix p s).length ≤ s.length := by
  unfold dropPrefix
  cases h : s.dropPrefix? p with
  | none => exact le_rfl
  | some t =>
      obtain ⟨q, hq, -⟩ := List.dropPrefix?_eq_some_iff.1 h
      rw [hq]
      simp

/-- `str::trim_start_matches`. -/
def trimStartMatches (p : List Char) (s : List Char) : List Char :=
  if _h : p ≠ [] ∧ p <+: s then trimStartMatches p (s.drop p.length) else s
termination_by s.length
decreasing_by
  obtain ⟨hne, hprefix⟩ := ‹p ≠ [] ∧ p <+: s›
  have := List.length_pos_iff.2 hne
  have := hprefix.length_le
  rw [List.length_drop]
  omega

theorem trimStartMatches_append {p : List Char} (hp : p ≠ []) (s : List Char) :
    trimStartMatches p (p ++ s) = trimStartMatches p s := by
  rw [trimStartMatches, dif_pos ⟨hp, List.prefix_append p s⟩, List.drop_left]

theorem trimStartMatches_of_not {p s : List Char} (h : ¬ p <+: s) : trimStartMatches p s = s := by
  rw [trimStartMatches, dif_neg fun h' => h h'.2]

/-- `str::trim_end_matches`. -/
def trimEndMatches (p s : List Char) : List Char := (trimStartMatches p.reverse s.reverse).reverse

theorem trimEndMatches_append {p : List Char} (hp : p ≠ []) (s : List Char) :
    trimEndMatches p (s ++ p) = trimEndMatches p s := by
  rw [trimEndMatches, List.reverse_append, trimStartMatches_append (by simpa using hp)]
  rfl

theorem trimEndMatches_of_not {p s : List Char} (h : ¬ p <:+ s) : trimEndMatches p s = s := by
  rw [trimEndMatches, trimStartMatches_of_not (fun h' => h (List.reverse_prefix.1 h')),
    List.reverse_reverse]

/-- The text before the first occurrence of a pattern, and the text from there on. -/
@[grind =] def cutAt (p : List Char) : List Char → Option (List Char × List Char)
  | [] => if p = [] then some ([], []) else none
  | c :: s =>
      if p <+: c :: s then some ([], c :: s) else (cutAt p s).map fun r => (c :: r.1, r.2)

/-- The text before the first occurrence of a pattern, and the text behind it. -/
def cutBehind (p s : List Char) : Option (List Char × List Char) :=
  (cutAt p s).map fun r => (r.1, r.2.drop p.length)

theorem cutBehind_nil {p : List Char} (hp : p ≠ []) : cutBehind p [] = none := by
  rw [cutBehind, cutAt, if_neg hp]
  rfl

theorem cutBehind_append (p s : List Char) (hp : p ≠ []) : cutBehind p (p ++ s) = some ([], s) := by
  obtain ⟨c, q, rfl⟩ := List.exists_cons_of_ne_nil hp
  have hprefix : c :: q <+: c :: (q ++ s) := List.prefix_append (c :: q) s
  rw [cutBehind, List.cons_append, cutAt, if_pos hprefix, Option.map_some, ← List.cons_append,
    List.drop_left]

theorem cutBehind_cons {p s : List Char} {c : Char} (h : ¬ p <+: c :: s) :
    cutBehind p (c :: s) = (cutBehind p s).map fun r => (c :: r.1, r.2) := by
  rw [cutBehind, cutAt, if_neg h, cutBehind, Option.map_map, Option.map_map]
  rfl

/-- A pattern that is found is there. -/
theorem eq_append_of_cutBehind {p s a b : List Char} (h : cutBehind p s = some (a, b)) :
    s = a ++ p ++ b := by
  induction s generalizing a with
  | nil =>
      by_cases hp : p = []
      · rw [cutBehind, cutAt, if_pos hp] at h
        cases h
        simp [hp]
      · rw [cutBehind_nil hp] at h
        cases h
  | cons c s ih =>
      by_cases hprefix : p <+: c :: s
      · obtain ⟨t, ht⟩ := hprefix
        rw [cutBehind, cutAt, if_pos ⟨t, ht⟩, Option.map_some, ← ht, List.drop_left] at h
        cases h
        rw [List.nil_append, ht]
      · rw [cutBehind_cons hprefix] at h
        obtain ⟨r, hr, heq⟩ := Option.map_eq_some_iff.1 h
        cases heq
        rw [ih hr]
        simp

/-- A pattern that is not found is not there. -/
theorem cutBehind_eq_none_iff {p s : List Char} (hp : p ≠ []) :
    cutBehind p s = none ↔ ¬ p <:+: s := by
  constructor
  · rintro h ⟨a, b, rfl⟩
    induction a with
    | nil =>
        rw [List.nil_append, cutBehind_append p b hp] at h
        cases h
    | cons c a ih =>
        by_cases hprefix : p <+: c :: (a ++ p ++ b)
        · obtain ⟨t, ht⟩ := hprefix
          rw [List.cons_append, List.cons_append, ← ht, cutBehind_append p t hp] at h
          cases h
        · rw [List.cons_append, List.cons_append, cutBehind_cons hprefix, Option.map_eq_none_iff] at h
          exact ih h
  · intro h
    cases hcut : cutBehind p s with
    | none => rfl
    | some r => exact absurd ⟨r.1, r.2, (eq_append_of_cutBehind hcut).symm⟩ h

/-- `str::to_ascii_lowercase`. -/
def toAsciiLowercase (s : String) : String := String.ofList (s.toList.map Char.toLower)

/-- `str::eq_ignore_ascii_case`. -/
def eqIgnoreAsciiCase (a b : String) : Bool :=
  a.toList.map Char.toLower == b.toList.map Char.toLower

/-! ### Lines -/

/-- The lines of a text, with their ends. -/
@[grind =] def linesIncl : List Char → List (List Char)
  | [] => []
  | c :: s =>
      if c = '\n' then [c] :: linesIncl s
      else
        match linesIncl s with
        | [] => [[c]]
        | l :: ls => (c :: l) :: ls

/-- A line without its end: `'\n'`, and a `'\r'` in front of it. -/
def stripEol (l : List Char) : List Char :=
  if l.getLast? = some '\n' then
    if l.dropLast.getLast? = some '\r' then l.dropLast.dropLast else l.dropLast
  else l

/-- `str::lines`. -/
def lines (s : List Char) : List (List Char) := (linesIncl s).map stripEol

/-- Lines with their ends: only the last one can be without. -/
def EndedLines : List (List Char) → Prop
  | [] => True
  | l :: ls => (∃ a, '\n' ∉ a ∧ (l = a ++ ['\n'] ∨ ls = [] ∧ l = a ∧ a ≠ [])) ∧ EndedLines ls

theorem flatten_linesIncl (s : List Char) : (linesIncl s).flatten = s := by
  induction s with
  | nil => rfl
  | cons c s ih =>
      rw [linesIncl]
      split
      · rw [List.flatten_cons, ih]
        rfl
      · split
        · rename_i hnil
          rw [hnil] at ih
          rw [← ih]
          rfl
        · rename_i l ls hcons
          rw [hcons, List.flatten_cons] at ih
          rw [List.flatten_cons, List.cons_append, ih]

theorem endedLines_linesIncl (s : List Char) : EndedLines (linesIncl s) := by
  induction s with
  | nil => trivial
  | cons c s ih =>
      rw [linesIncl]
      split
      · rename_i hc
        subst hc
        exact ⟨⟨[], List.not_mem_nil, .inl rfl⟩, ih⟩
      · rename_i hc
        split
        · exact ⟨⟨[c], by simpa using Ne.symm hc, .inr ⟨rfl, rfl, List.cons_ne_nil _ _⟩⟩, trivial⟩
        · rename_i l ls hcons
          rw [hcons] at ih
          obtain ⟨⟨a, ha, hl⟩, hls⟩ := ih
          refine ⟨⟨c :: a, ?_, ?_⟩, hls⟩
          · rw [List.mem_cons, not_or]
            exact ⟨Ne.symm hc, ha⟩
          · rcases hl with rfl | ⟨hnil, rfl, -⟩
            · exact .inl rfl
            · exact .inr ⟨hnil, rfl, List.cons_ne_nil _ _⟩

theorem linesIncl_append_newline {a : List Char} (ha : '\n' ∉ a) (s : List Char) :
    linesIncl (a ++ ['\n'] ++ s) = (a ++ ['\n']) :: linesIncl s := by
  induction a with
  | nil => rfl
  | cons c a ih =>
      rw [List.mem_cons, not_or] at ha
      rw [List.cons_append, List.cons_append, linesIncl, if_neg (Ne.symm ha.1), ih ha.2]

theorem linesIncl_of_not_mem {a : List Char} (ha : '\n' ∉ a) (hne : a ≠ []) :
    linesIncl a = [a] := by
  induction a with
  | nil => exact absurd rfl hne
  | cons c a ih =>
      rw [List.mem_cons, not_or] at ha
      rw [linesIncl, if_neg (Ne.symm ha.1)]
      cases a with
      | nil => rfl
      | cons d a => rw [ih ha.2 (List.cons_ne_nil _ _)]

/-- Lines with their ends are the lines of their text. -/
theorem linesIncl_flatten {ls : List (List Char)} (h : EndedLines ls) :
    linesIncl ls.flatten = ls := by
  induction ls with
  | nil => rfl
  | cons l ls ih =>
      obtain ⟨⟨a, ha, hl⟩, hls⟩ := h
      rw [List.flatten_cons]
      rcases hl with rfl | ⟨rfl, rfl, hne⟩
      · rw [linesIncl_append_newline ha, ih hls]
      · rw [List.flatten_nil, List.append_nil, linesIncl_of_not_mem ha hne]

/-- The first of some lines are lines. -/
theorem EndedLines.take {ls : List (List Char)} (h : EndedLines ls) (k : ℕ) :
    EndedLines (ls.take k) := by
  induction ls generalizing k with
  | nil => rwa [List.take_nil]
  | cons l ls ih =>
      cases k with
      | zero => exact trivial
      | succ k =>
          obtain ⟨⟨a, ha, hl⟩, hls⟩ := h
          refine ⟨⟨a, ha, hl.imp id ?_⟩, ih hls k⟩
          rintro ⟨rfl, hla⟩
          exact ⟨List.take_nil, hla⟩

/-- The end of a line is trimmed away. -/
@[simp] theorem trim_stripEol (l : List Char) : trim (stripEol l) = trim l := by
  have hlast : ∀ (s : List Char) (c : Char), isWhitespace c = true → s.getLast? = some c →
      trim s.dropLast = trim s := by
    intro s c hc hs
    obtain ⟨t, rfl⟩ := List.getLast?_eq_some_iff.1 hs
    rw [List.dropLast_concat, trim_concat t hc]
  rw [stripEol]
  split
  · rename_i hnewline
    split
    · rename_i hreturn
      rw [hlast _ '\r' (by decide) hreturn, hlast _ '\n' (by decide) hnewline]
    · exact hlast _ '\n' (by decide) hnewline
  · rfl

/-- The end of a line is white space. -/
theorem withoutWhitespace_stripEol (l : List Char) :
    withoutWhitespace (stripEol l) = withoutWhitespace l := by
  rw [← withoutWhitespace_trim (stripEol l), trim_stripEol, withoutWhitespace_trim]

/-! ### Numbers -/

/-- `char::to_digit`, for a radix of at most 16. -/
def digitVal (radix : ℕ) (c : Char) : Option ℕ :=
  let n := c.toNat
  let d := if 0x30 ≤ n ∧ n ≤ 0x39 then n - 0x30
    else if 0x61 ≤ n ∧ n ≤ 0x66 then n - 0x57
    else if 0x41 ≤ n ∧ n ≤ 0x46 then n - 0x37
    else radix
  if d < radix then some d else none

/-- `from_str_radix` of an unsigned type whose values are those below `bound`: a sign `+` is
allowed, there is at least one digit, and the number has to fit. -/
def parseUnsigned (radix bound : ℕ) (s : List Char) : Option ℕ := do
  let digits ← (dropPrefix ['+'] s).mapM (digitVal radix)
  let n := digits.foldl (fun acc d => acc * radix + d) 0
  guard (digits ≠ [] ∧ n < bound)
  return n

/-! ### Sums of bytes -/

/-- The exclusive or of all bytes. -/
def xorAll (l : List UInt8) : UInt8 := l.foldr (· ^^^ ·) 0

/-- **Folding the differences of two byte strings compares their sums**: differences cancel. -/
theorem foldl_xor_zip {l l' : List UInt8} (h : l.length = l'.length) (acc : UInt8) :
    (l.zip l').foldl (fun acc p => acc ^^^ p.1 ^^^ p.2) acc = acc ^^^ (xorAll l ^^^ xorAll l') := by
  induction l generalizing l' acc with
  | nil =>
      obtain rfl := List.length_eq_zero_iff.1 h.symm
      simp [xorAll]
  | cons x l ih =>
      cases l' with
      | nil => cases h
      | cons y l' =>
          rw [List.zip_cons_cons, List.foldl_cons, ih (Nat.succ.inj h)]
          simp only [xorAll, List.foldr_cons]
          ac_rfl

end Text
