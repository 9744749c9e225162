/-
**The reply as it is spoken and as it is stored.**

A reply of the language model is spoken through `ThinkFilter`, delta by delta, and stored through
`strip_think_blocks` of `crates/streaming/src/llm/mod.rs`, which looks at the beginning of each line:
a line that begins with a marker is dropped with all that stands on it, and a marker anywhere else is
text.

Main definitions:

* `SentenceStream.stripThinkBlocks`, `SentenceStream.visible` — what is stored, and what is spoken;
* `SentenceStream.LinesAgree` — the replies whose lines are as `strip_think_blocks` takes them to be;
* `SentenceStream.SpokenAsStored` — both are the same but for white space.

Main results:

* `SentenceStream.withoutWhitespace_visible_eq_iff` — one line;
* `SentenceStream.spokenAsStored_lines_iff` — **which replies are spoken as they are stored**.
-/

import MibeeEye.SentenceStream

set_option relaxedAutoImplicit false
set_option autoImplicit false

namespace SentenceStream

open Text

/-! ### The stored reply -/

/-- The loop of `strip_think_blocks` over the lines. -/
@[grind =] def stripLoop (inThink : Bool) : List (List Char) → List Char
  | [] => []
  | line :: lines =>
      let t := trim line
      if thinkOpen <+: t then stripLoop true lines
      else if thinkClose <+: t then stripLoop false lines
      else if !inThink then line ++ ['\n'] ++ stripLoop inThink lines
      else stripLoop inThink lines

/-- **`strip_think_blocks`.** -/
def stripThinkBlocks (reply : List Char) : List Char := trim (stripLoop false (lines reply))

/-! ### The spoken reply -/

/-- What `ThinkFilter::push` returns for some deltas, put together. -/
def pushes (filter : ThinkFilter) : List (List Char) → List Char
  | [] => []
  | delta :: deltas => (filter.push delta).1 ++ pushes (filter.push delta).2 deltas

/-- **What is spoken of some deltas.** -/
def visible (deltas : List (List Char)) : List Char := pushes {} deltas

/-- A reply in which every `<think>` is followed by a `</think>`. -/
def EveryClosed (t : List Char) : Prop :=
  ∀ u, u <:+ t → thinkOpen <+: u → thinkClose <:+: u.drop thinkOpen.length

/-- However the reply is cut into deltas, it is spoken as it is stored. -/
def SpokenAsStored (t : List Char) : Prop :=
  ∀ deltas : List (List Char), deltas.flatten = t →
    withoutWhitespace (visible deltas) = withoutWhitespace (stripThinkBlocks t)

/-! ### Lines that both take alike -/

/-- Whether a block is open behind a text. -/
def blockOpen (inThink : Bool) (s : List Char) : Bool :=
  match _h : cutBehind (marker inThink) s with
  | some (_, rest) => blockOpen (!inThink) rest
  | none => inThink
termination_by s.length
decreasing_by exact length_cutBehind (marker_ne_nil inThink) _h

/-- There is only white space outside of the blocks, but for a tail that is held back. -/
def covered (inThink : Bool) (s : List Char) : Bool :=
  match _h : cutBehind (marker inThink) s with
  | some (before, rest) =>
      (inThink || withoutWhitespace before == []) && covered (!inThink) rest
  | none =>
      inThink || withoutWhitespace (s.take (s.length - markerPrefixLen s (marker inThink))) == []
termination_by s.length
decreasing_by exact length_cutBehind (marker_ne_nil inThink) _h

/-- Whether `strip_think_blocks` keeps a line. -/
def keeps (inThink : Bool) (line : List Char) : Bool :=
  !(thinkOpen.isPrefixOf (trim line) || thinkClose.isPrefixOf (trim line) || inThink)

/-- Whether it drops the lines after a line. -/
def dropsAfter (inThink : Bool) (line : List Char) : Bool :=
  if thinkOpen <+: trim line then true else if thinkClose <+: trim line then false else inThink

/-- **A line that both take alike**; `inBlock` says whether it begins in a block, `inThink` whether
`strip_think_blocks` takes it to.  It is kept, and it is blank or outside of all blocks to its very
end; or it is dropped, and has nothing outside of them. -/
def LineAgrees (inBlock inThink : Bool) (line : List Char) : Prop :=
  if keeps inThink line then
    withoutWhitespace line = [] ∨
      inBlock = false ∧ ¬ thinkOpen <:+: line ∧ heldTail thinkOpen line = []
  else covered inBlock line = true

instance (inBlock inThink : Bool) (line : List Char) : Decidable (LineAgrees inBlock inThink line) :=
  inferInstanceAs (Decidable (if keeps inThink line then
    withoutWhitespace line = [] ∨
      inBlock = false ∧ ¬ thinkOpen <:+: line ∧ heldTail thinkOpen line = []
  else covered inBlock line = true))

/-- **All lines are taken alike.** -/
@[grind =] def LinesAgree (inBlock inThink : Bool) : List (List Char) → Prop
  | [] => True
  | line :: lines => LineAgrees inBlock inThink line ∧
      LinesAgree (blockOpen inBlock line) (dropsAfter inThink line) lines

instance decidableLinesAgree : ∀ inBlock inThink lines, Decidable (LinesAgree inBlock inThink lines)
  | _, _, [] => inferInstanceAs (Decidable True)
  | inBlock, inThink, line :: lines =>
      have := decidableLinesAgree (blockOpen inBlock line) (dropsAfter inThink line) lines
      inferInstanceAs (Decidable (LineAgrees inBlock inThink line ∧
        LinesAgree (blockOpen inBlock line) (dropsAfter inThink line) lines))

/-! ### One line -/

section Line

variable {inThink : Bool} {s : List Char}

/-- Induction over the markers of a text. -/
theorem marker_induction {P : Bool → List Char → Prop}
    (none : ∀ inThink s, cutBehind (marker inThink) s = none → P inThink s)
    (some : ∀ inThink s before rest, cutBehind (marker inThink) s = some (before, rest) →
      P (!inThink) rest → P inThink s) (inThink : Bool) (s : List Char) : P inThink s := by
  induction h : s.length using Nat.strong_induction_on generalizing inThink s with
  | _ n ih =>
      subst h
      cases hcut : cutBehind (marker inThink) s with
      | none => exact none inThink s hcut
      | some r =>
          exact some inThink s r.1 r.2 hcut
            (ih _ (length_cutBehind (marker_ne_nil inThink) hcut) _ _ rfl)

theorem blockOpen_of_none (h : cutBehind (marker inThink) s = none) :
    blockOpen inThink s = inThink := by
  rw [blockOpen]
  split
  · rename_i heq
    rw [h] at heq
    cases heq
  · rfl

theorem blockOpen_of_some {before rest : List Char}
    (h : cutBehind (marker inThink) s = some (before, rest)) :
    blockOpen inThink s = blockOpen (!inThink) rest := by
  rw [blockOpen]
  split
  · rename_i heq
    rw [h] at heq
    cases heq
    rfl
  · rename_i heq
    rw [h] at heq
    cases heq

theorem covered_of_none (h : cutBehind (marker inThink) s = none) :
    covered inThink s = (inThink ||
      withoutWhitespace (s.take (s.length - markerPrefixLen s (marker inThink))) == []) := by
  rw [covered]
  split
  · rename_i heq
    rw [h] at heq
    cases heq
  · rfl

theorem covered_of_some {before rest : List Char}
    (h : cutBehind (marker inThink) s = some (before, rest)) :
    covered inThink s =
      ((inThink || withoutWhitespace before == []) && covered (!inThink) rest) := by
  rw [covered]
  split
  · rename_i heq
    rw [h] at heq
    cases heq
    rfl
  · rename_i heq
    rw [h] at heq
    cases heq

/-- The filter is in a block where one is open. -/
theorem loop_inThink (inThink : Bool) (s : List Char) :
    (ThinkFilter.loop inThink s).2.inThink = blockOpen inThink s := by
  induction inThink, s using marker_induction with
  | none inThink s h => rw [loop_of_none h, blockOpen_of_none h]
  | some inThink s before rest h ih => rw [loop_of_some h, blockOpen_of_some h, ih]

/-- Nothing is spoken of a text with nothing outside of its blocks. -/
theorem withoutWhitespace_loop_eq_nil_iff (inThink : Bool) (s : List Char) :
    withoutWhitespace (ThinkFilter.loop inThink s).1 = [] ↔ covered inThink s = true := by
  induction inThink, s using marker_induction with
  | none inThink s h =>
      rw [loop_of_none h, covered_of_none h]
      cases inThink <;> simp
  | some inThink s before rest h ih =>
      rw [loop_of_some h, covered_of_some h, withoutWhitespace_append, List.append_eq_nil_iff, ih]
      cases inThink <;> simp

/-- What is spoken of a text is in it. -/
theorem loop_sublist (inThink : Bool) (s : List Char) :
    (ThinkFilter.loop inThink s).1.Sublist s := by
  induction inThink, s using marker_induction with
  | none inThink s h =>
      rw [loop_of_none h]
      cases inThink
      · exact List.take_sublist _ _
      · exact List.nil_sublist _
  | some inThink s before rest h ih =>
      rw [loop_of_some h, eq_append_of_cutBehind h]
      refine List.Sublist.append ?_ ih
      cases inThink
      · exact List.sublist_append_left before _
      · exact List.nil_sublist _

/-- A marker is not spoken: a text that has one loses something. -/
theorem length_withoutWhitespace_loop_lt {before rest : List Char}
    (h : cutBehind (marker inThink) s = some (before, rest)) :
    (withoutWhitespace (ThinkFilter.loop inThink s).1).length < (withoutWhitespace s).length := by
  have hrest := ((loop_sublist (!inThink) rest).filter fun c => !isWhitespace c).length_le
  have hmarker : 0 < (withoutWhitespace (marker inThink)).length := by
    cases inThink <;> decide
  rw [loop_of_some h, eq_append_of_cutBehind h]
  simp only [withoutWhitespace_append, List.length_append]
  change (withoutWhitespace _).length ≤ (withoutWhitespace rest).length at hrest
  cases inThink
  · rw [if_neg Bool.false_ne_true]
    omega
  · rw [if_pos rfl, withoutWhitespace_nil, List.length_nil]
    omega

/-- **A line of which all is spoken.** -/
theorem withoutWhitespace_visible_eq_iff (inBlock : Bool) (s : List Char) :
    withoutWhitespace (ThinkFilter.loop inBlock s).1 = withoutWhitespace s ↔
      withoutWhitespace s = [] ∨
        inBlock = false ∧ ¬ thinkOpen <:+: s ∧ heldTail thinkOpen s = [] := by
  cases hcut : cutBehind (marker inBlock) s with
  | some r =>
      have hlt := length_withoutWhitespace_loop_lt hcut
      constructor
      · intro h
        rw [h] at hlt
        exact absurd hlt (lt_irrefl _)
      · rintro (hblank | ⟨rfl, hopen, -⟩)
        · rw [hblank] at hlt
          exact absurd hlt (Nat.not_lt_zero _)
        · exact absurd ⟨r.1, r.2, (eq_append_of_cutBehind hcut).symm⟩ hopen
  | none =>
      rw [loop_of_none hcut]
      cases inBlock with
      | true =>
          rw [if_pos rfl, withoutWhitespace_nil]
          exact ⟨fun h => .inl h.symm, fun h => (h.resolve_right fun h => by cases h.1).symm⟩
      | false =>
          have hopen := (cutBehind_eq_none_iff (List.cons_ne_nil _ _)).1 hcut
          have hparts : withoutWhitespace (s.take (s.length - markerPrefixLen s thinkOpen)) ++
              heldTail thinkOpen s = withoutWhitespace s := by
            rw [← withoutWhitespace_heldTail, ← withoutWhitespace_append, take_append_heldTail]
          rw [if_neg Bool.false_ne_true]
          constructor
          · intro h
            refine .inr ⟨rfl, hopen, ?_⟩
            exact List.self_eq_append_right.1 (h.trans hparts.symm)
          · rintro (hblank | ⟨-, -, hheld⟩)
            · rw [hblank, List.append_eq_nil_iff] at hparts
              exact hparts.1.trans hblank.symm
            · rwa [hheld, List.append_nil] at hparts

end Line

/-! ### All lines -/

/-- What the filter holds back after a text is a tail of it. -/
theorem loop_pending (inThink : Bool) (s : List Char) :
    (ThinkFilter.loop inThink s).2.pending <:+ s ∧
      ∀ c ∈ (ThinkFilter.loop inThink s).2.pending, c.toLower ∈ thinkClose := by
  have hmarker (inThink : Bool) :
      ∀ c ∈ (marker inThink).map Char.toLower, thinkClose.contains c = true := by
    cases inThink <;> exact List.all_eq_true.1 (by decide)
  induction inThink, s using loop_induction with
  | nil inThink =>
      rw [loop_nil]
      exact ⟨List.suffix_refl _, fun c hc => absurd hc List.not_mem_nil⟩
  | marker inThink s ih =>
      rw [loop_marker]
      exact ⟨ih.1.trans (List.suffix_append _ _), ih.2⟩
  | held inThink u h =>
      rw [loop_partialMarker h]
      exact ⟨List.suffix_refl _,
        fun c hc => List.contains_iff_mem.1
          (hmarker inThink _ (h.2.2.subset (List.mem_map_of_mem hc)))⟩
  | cons inThink c s hm hp ih =>
      rw [loop_cons hm hp]
      exact ⟨ih.1.trans (List.suffix_cons c s), ih.2⟩

/-- Nothing is held back over the end of a line. -/
theorem pending_newline (inThink : Bool) (a : List Char) :
    (ThinkFilter.loop inThink (a ++ ['\n'])).2.pending = [] := by
  obtain ⟨⟨b, hb⟩, hchars⟩ := loop_pending inThink (a ++ ['\n'])
  generalize (ThinkFilter.loop inThink (a ++ ['\n'])).2.pending = pending at hb hchars
  rcases List.eq_nil_or_concat' pending with rfl | ⟨u, c, rfl⟩
  · rfl
  · rw [← List.append_assoc] at hb
    obtain ⟨-, hc⟩ := List.append_inj' hb rfl
    obtain rfl : c = '\n' := (List.cons.inj hc).1
    exact absurd (hchars '\n' (by simp)) (by decide)

/-- **The filter reads line by line.** -/
theorem loop_line (inBlock : Bool) {line : List Char} {lines : List (List Char)}
    (h : EndedLines (line :: lines)) :
    (ThinkFilter.loop inBlock (line :: lines).flatten).1 =
      (ThinkFilter.loop inBlock line).1 ++
        (ThinkFilter.loop (blockOpen inBlock line) lines.flatten).1 := by
  obtain ⟨⟨a, -, hline⟩, -⟩ := h
  rw [List.flatten_cons]
  rcases hline with rfl | ⟨rfl, rfl, -⟩
  · rw [loop_append, ThinkFilter.push, pending_newline, List.nil_append, loop_inThink]
  · rw [List.flatten_nil, List.append_nil, loop_nil, List.append_nil]

/-- `strip_think_blocks` reads line by line. -/
theorem withoutWhitespace_stripLoop_cons (inThink : Bool) (line : List Char)
    (lines : List (List Char)) :
    withoutWhitespace (stripLoop inThink ((line :: lines).map stripEol)) =
      (if keeps inThink line then withoutWhitespace line else []) ++
        withoutWhitespace (stripLoop (dropsAfter inThink line) (lines.map stripEol)) := by
  have hend : withoutWhitespace ['\n'] = [] := by decide
  have hkeeps : keeps inThink line = true ↔
      ¬ thinkOpen <+: trim line ∧ ¬ thinkClose <+: trim line ∧ inThink = false := by
    rw [keeps, Bool.not_eq_true', Bool.or_eq_false_iff, Bool.or_eq_false_iff, and_assoc,
      Bool.eq_false_iff, Bool.eq_false_iff, ne_eq, ne_eq, List.isPrefixOf_iff_prefix,
      List.isPrefixOf_iff_prefix]
  rw [List.map_cons, stripLoop, dropsAfter]
  simp only [trim_stripEol]
  by_cases hopen : thinkOpen <+: trim line
  · rw [if_pos hopen, if_pos hopen, if_neg fun h => (hkeeps.1 h).1 hopen, List.nil_append]
  rw [if_neg hopen, if_neg hopen]
  by_cases hclose : thinkClose <+: trim line
  · rw [if_pos hclose, if_pos hclose, if_neg fun h => (hkeeps.1 h).2.1 hclose, List.nil_append]
  rw [if_neg hclose, if_neg hclose]
  cases inThink with
  | false =>
      rw [if_pos (by rfl), if_pos (hkeeps.2 ⟨hopen, hclose, rfl⟩)]
      simp only [withoutWhitespace_append, hend, List.append_nil, withoutWhitespace_stripEol]
  | true =>
      rw [if_neg (by decide), if_neg fun h => Bool.noConfusion (hkeeps.1 h).2.2, List.nil_append]

/-- One line is spoken as it is stored. -/
theorem lineAgrees_iff (inBlock inThink : Bool) (line : List Char) :
    withoutWhitespace (ThinkFilter.loop inBlock line).1 =
        (if keeps inThink line then withoutWhitespace line else []) ↔
      LineAgrees inBlock inThink line := by
  rw [LineAgrees]
  split
  · exact withoutWhitespace_visible_eq_iff inBlock line
  · exact withoutWhitespace_loop_eq_nil_iff inBlock line

/-- What is spoken of some lines is what is stored of them. -/
def SameText (inBlock inThink : Bool) (lines : List (List Char)) : Prop :=
  withoutWhitespace (ThinkFilter.loop inBlock lines.flatten).1 =
    withoutWhitespace (stripLoop inThink (lines.map stripEol))

theorem sameText_nil (inBlock inThink : Bool) : SameText inBlock inThink [] := by
  rw [SameText, List.flatten_nil, loop_nil]
  rfl

/-- A line that both take alike can be taken away. -/
theorem sameText_cons_iff {inBlock inThink : Bool} {line : List Char} {lines : List (List Char)}
    (hended : EndedLines (line :: lines)) (h : LineAgrees inBlock inThink line) :
    SameText inBlock inThink (line :: lines) ↔
      SameText (blockOpen inBlock line) (dropsAfter inThink line) lines := by
  rw [SameText, loop_line inBlock hended, withoutWhitespace_stripLoop_cons,
    withoutWhitespace_append, (lineAgrees_iff inBlock inThink line).2 h, List.append_right_inj]
  rfl

/-- **Lines that both take alike** are those whose beginnings are spoken as they are stored. -/
theorem sameText_take_iff {inBlock inThink : Bool} {lines : List (List Char)}
    (hended : EndedLines lines) :
    (∀ k, SameText inBlock inThink (lines.take k)) ↔ LinesAgree inBlock inThink lines := by
  induction lines generalizing inBlock inThink with
  | nil =>
      refine ⟨fun _ => trivial, fun _ k => ?_⟩
      rw [List.take_nil]
      exact sameText_nil inBlock inThink
  | cons line lines ih =>
      have hrest := @ih (blockOpen inBlock line) (dropsAfter inThink line) hended.2
      rw [LinesAgree, ← hrest]
      constructor
      · intro h
        -- the first line by itself, and then all of them without it
        have hline : LineAgrees inBlock inThink line := by
          have h1 : SameText inBlock inThink (line :: lines.take 0) := h 1
          have hnil : SameText (blockOpen inBlock line) (dropsAfter inThink line)
              (lines.take 0) := sameText_nil _ _
          rw [SameText] at h1 hnil
          rw [loop_line inBlock (hended.take 1), withoutWhitespace_stripLoop_cons,
            withoutWhitespace_append, hnil, List.append_left_inj] at h1
          exact (lineAgrees_iff inBlock inThink line).1 h1
        exact ⟨hline, fun k => (sameText_cons_iff (hended.take (k + 1)) hline).1 (h (k + 1))⟩
      · rintro ⟨hline, h⟩ k
        cases k with
        | zero => exact sameText_nil inBlock inThink
        | succ k => exact (sameText_cons_iff (hended.take (k + 1)) hline).2 (h k)

/-! ### All deltas -/

/-- However a text is cut, the same is spoken. -/
theorem visible_eq (deltas : List (List Char)) :
    visible deltas = (ThinkFilter.loop false deltas.flatten).1 := by
  have hpushes : ∀ (deltas : List (List Char)) (filter : ThinkFilter),
      filter.push [] = ([], filter) → pushes filter deltas = (filter.push deltas.flatten).1 := by
    intro deltas
    induction deltas with
    | nil =>
        intro filter hfilter
        rw [List.flatten_nil, hfilter]
        rfl
    | cons delta deltas ih =>
        intro filter _
        have hloop := loop_append filter.inThink (filter.pending ++ delta) deltas.flatten
        have hsettled : (filter.push delta).2.push [] = ([], (filter.push delta).2) :=
          loop_settled _ _
        rw [pushes, ih _ hsettled, List.flatten_cons]
        rw [List.append_assoc] at hloop
        exact (congrArg Prod.fst hloop).symm
  exact hpushes deltas {} loop_nil

theorem spokenAsStored_iff (t : List Char) :
    SpokenAsStored t ↔ SameText false false (linesIncl t) := by
  have hstored : withoutWhitespace (stripThinkBlocks t) =
      withoutWhitespace (stripLoop false ((linesIncl t).map stripEol)) := by
    rw [stripThinkBlocks, withoutWhitespace_trim]
    rfl
  rw [SpokenAsStored, SameText, flatten_linesIncl, hstored]
  constructor
  · intro h
    have hone := h [t] List.flatten_singleton
    rwa [visible_eq, List.flatten_singleton] at hone
  · rintro h deltas rfl
    rw [visible_eq, h]

/-- **Which replies are spoken as they are stored**: those whose lines both take alike; and a reply
of which this is so at every end of a line is one of them.  A reply can be spoken as it is stored
for another reason only if a text that is lost in one line comes in again in a later one. -/
theorem spokenAsStored_lines_iff (t : List Char) :
    (LinesAgree false false (linesIncl t) → SpokenAsStored t) ∧
      ((∀ k, SpokenAsStored ((linesIncl t).take k).flatten) ↔
        LinesAgree false false (linesIncl t)) := by
  have hended := endedLines_linesIncl t
  have hbeginnings : (∀ k, SpokenAsStored ((linesIncl t).take k).flatten) ↔
      LinesAgree false false (linesIncl t) := by
    rw [← sameText_take_iff hended]
    refine forall_congr' fun k => ?_
    rw [spokenAsStored_iff, linesIncl_flatten (hended.take k)]
  refine ⟨fun h => ?_, hbeginnings⟩
  have hall := hbeginnings.2 h (linesIncl t).length
  rwa [List.take_length, flatten_linesIncl] at hall

/-- An answer behind `</think>`, on the line that begins with `<think>`, is spoken and not stored. -/
theorem answer_not_stored :
    ¬ ∀ t : List Char, EveryClosed t → SpokenAsStored t := by
  intro h
  have hclosed : EveryClosed "<think>a</think>b".toList := by
    have htails : ∀ u ∈ ("<think>a</think>b".toList).tails, thinkOpen <+: u →
        thinkClose <:+: u.drop thinkOpen.length := by decide
    intro u hu
    exact htails u ((List.mem_tails _ _).2 hu)
  have hspoken := h _ hclosed ["<think>a</think>b".toList] rfl
  rw [visible_eq] at hspoken
  revert hspoken
  decide +kernel

/-- A block on lines of its own. -/
example : LinesAgree false false (linesIncl "<think>\na\n</think>\n\nb".toList) := by
  decide +kernel

/-- Lines that are not taken alike, and a reply that is spoken as it is stored: the markers that are
stored of the first line are spoken, with a blank in them, of the second. -/
example : SpokenAsStored "a<think></think>\n<think></think>< think></think>".toList ∧
    ¬ LinesAgree false false
      (linesIncl "a<think></think>\n<think></think>< think></think>".toList) := by
  refine ⟨(spokenAsStored_iff _).2 ?_, by decide⟩
  rw [SameText]
  decide +kernel

end SentenceStream
