/-
**Sentences out of a stream of deltas.**

`crates/streaming/src/sentence.rs`: a reply of the language model arrives in pieces.  `ThinkFilter`
takes the spans between `<think>` and `</think>` out of it, and holds back a tail that could be the
beginning of a marker; `SentenceSplitter` cuts what is left into sentences.

Both work on what they hold back and the new piece put together, and what they do with a text can be
said one character at a time.  So neither depends on how the text was cut.  A tail is held back up to
case, a marker is one in its own case only; what is held back at the end is never given out.

Main definitions:

* `SentenceStream.ThinkFilter.push`, `SentenceStream.SentenceSplitter.push`,
  `SentenceStream.SentenceSplitter.flush` — the two stages;
* `SentenceStream.stream` — both, one after the other, over a list of deltas;
* `SentenceStream.PartialMarker` — what is held back.

Main results:

* `SentenceStream.loop_append`, `SentenceStream.drain_append` — a text in two pieces;
* `SentenceStream.stream_eq` — **the sentences of a list of deltas** are those of their text;
* `SentenceStream.stream_cutIndependent_iff` — **what is lost of a text without markers**.
-/

import MibeeEye.Text
import Mathlib.Data.List.Infix

set_option relaxedAutoImplicit false
set_option autoImplicit false

namespace SentenceStream

open Text

/-! ### Markers -/

/-- `THINK_OPEN` -/
def thinkOpen : List Char := ['<', 't', 'h', 'i', 'n', 'k', '>']

/-- `THINK_CLOSE` -/
def thinkClose : List Char := ['<', '/', 't', 'h', 'i', 'n', 'k', '>']

/-- `eq_ignore_ascii_case`. -/
def eqIgnoreCase (a b : List Char) : Bool := a.map Char.toLower == b.map Char.toLower

/-- The loop of `marker_prefix_len`, from a length down.  The markers are ASCII, so that a tail of
the bytes that equals the beginning of one up to case is a tail of the characters. -/
def markerPrefixLenFrom (text marker : List Char) : ℕ → ℕ
  | 0 => 0
  | len + 1 =>
      if eqIgnoreCase (text.drop (text.length - (len + 1))) (marker.take (len + 1)) then len + 1
      else markerPrefixLenFrom text marker len

/-- `marker_prefix_len`. -/
def markerPrefixLen (text marker : List Char) : ℕ :=
  markerPrefixLenFrom text marker (min text.length (marker.length - 1))

/-- A text that could be the beginning of a marker: a proper prefix of it, up to case. -/
def PartialMarker (marker u : List Char) : Prop :=
  u ≠ [] ∧ u.length < marker.length ∧ u.map Char.toLower <+: marker.map Char.toLower

instance (marker u : List Char) : Decidable (PartialMarker marker u) :=
  inferInstanceAs (Decidable (_ ∧ _ ∧ _))

/-! ### The filter -/

/-- `ThinkFilter` -/
structure ThinkFilter where
  inThink : Bool := false
  pending : List Char := []
  deriving DecidableEq, Repr

theorem length_cutBehind {p s a b : List Char} (hp : p ≠ []) (h : cutBehind p s = some (a, b)) :
    b.length < s.length := by
  have hlen := List.length_pos_iff.2 hp
  rw [eq_append_of_cutBehind h, List.length_append, List.length_append]
  omega

/-- The loop of `ThinkFilter::push`: the visible text, and the filter after it. -/
@[grind =] def ThinkFilter.loop (inThink : Bool) (pending : List Char) : List Char × ThinkFilter :=
  if inThink then
    match _h : cutBehind thinkClose pending with
    | some (_, rest) => loop false rest
    | none =>
        let dropTo := pending.length - markerPrefixLen pending thinkClose
        ([], { inThink := true, pending := pending.drop dropTo })
  else
    match _h : cutBehind thinkOpen pending with
    | some (before, rest) =>
        let (out, filter) := loop true rest
        (before ++ out, filter)
    | none =>
        let emitTo := pending.length - markerPrefixLen pending thinkOpen
        (pending.take emitTo, { inThink := false, pending := pending.drop emitTo })
termination_by pending.length
decreasing_by
  · exact length_cutBehind (List.cons_ne_nil _ _) _h
  · exact length_cutBehind (List.cons_ne_nil _ _) _h

/-- **`ThinkFilter::push`.** -/
def ThinkFilter.push (filter : ThinkFilter) (delta : List Char) : List Char × ThinkFilter :=
  loop filter.inThink (filter.pending ++ delta)

/-! ### The splitter -/

/-- The characters that end a sentence. -/
def boundaries : List Char := ['。', '！', '？', '!', '?', ';', '；', '\n']

/-- The text up to the first boundary, with it, and the text behind it. -/
@[grind =] def cutSentence : List Char → Option (List Char × List Char)
  | [] => none
  | c :: s => if c ∈ boundaries then some ([c], s) else (cutSentence s).map fun r => (c :: r.1, r.2)

theorem length_cutSentence {s a b : List Char} (h : cutSentence s = some (a, b)) :
    b.length < s.length := by
  induction s generalizing a with
  | nil => cases h
  | cons c s ih =>
      rw [cutSentence] at h
      split at h
      · cases h
        exact Nat.lt_succ_self _
      · obtain ⟨r, hr, heq⟩ := Option.map_eq_some_iff.1 h
        cases heq
        exact (ih hr).trans (Nat.lt_succ_self _)

/-- A sentence, if there is something in it. -/
def sentence (s : List Char) : List (List Char) := if trim s = [] then [] else [trim s]

/-- The loop of `SentenceSplitter::push`: the sentences, and what is left in the buffer. -/
@[grind =] def drain (buf : List Char) : List (List Char) × List Char :=
  match _h : cutSentence buf with
  | some (first, rest) =>
      let (out, buf) := drain rest
      (sentence first ++ out, buf)
  | none => ([], buf)
termination_by buf.length
decreasing_by exact length_cutSentence _h

/-- `SentenceSplitter`, which is its buffer. -/
abbrev SentenceSplitter := List Char

/-- **`SentenceSplitter::push`.** -/
def SentenceSplitter.push (buf : SentenceSplitter) (text : List Char) :
    List (List Char) × SentenceSplitter :=
  drain (buf ++ text)

/-- `SentenceSplitter::flush`. -/
def SentenceSplitter.flush (buf : SentenceSplitter) : Option (List Char) × SentenceSplitter :=
  let rest := trim buf
  if rest = [] then (none, []) else (some rest, [])

/-! ### Both stages -/

/-- The deltas are pushed, one after the other: the sentences, and both stages after them. -/
def pushAll (filter : ThinkFilter) (splitter : SentenceSplitter) :
    List (List Char) → List (List Char) × ThinkFilter × SentenceSplitter
  | [] => ([], filter, splitter)
  | delta :: deltas =>
      let (visible, filter) := filter.push delta
      let (out, splitter) := SentenceSplitter.push splitter visible
      let (outs, stages) := pushAll filter splitter deltas
      (out ++ outs, stages)

/-- **The sentences of some deltas**, the flushed one with them, and whether a block is open. -/
def stream (deltas : List (List Char)) : List (List Char) × Bool :=
  let (out, filter, splitter) := pushAll {} [] deltas
  (out ++ (SentenceSplitter.flush splitter).1.toList, filter.inThink)

/-! ### What is held back -/

section Held

variable {marker u s : List Char} {c : Char}

theorem PartialMarker.of_append (hu : u ≠ []) {b : List Char}
    (h : PartialMarker marker (u ++ b)) : PartialMarker marker u := by
  obtain ⟨-, hlen, hprefix⟩ := h
  rw [List.length_append] at hlen
  rw [List.map_append] at hprefix
  exact ⟨hu, by omega, (List.prefix_append _ _).trans hprefix⟩

/-- The beginning of a marker could be the beginning of a marker. -/
theorem partialMarker_of_begins (hu : u ≠ []) (hlen : u.length < marker.length)
    (h : u <+: marker) : PartialMarker marker u := ⟨hu, hlen, h.map _⟩

/-- The whole of a text is compared with the beginning of the marker. -/
theorem eqIgnoreCase_take_iff :
    eqIgnoreCase u (marker.take u.length) = true ↔ u.map Char.toLower <+: marker.map Char.toLower := by
  rw [eqIgnoreCase, beq_iff_eq, List.prefix_iff_eq_take, List.map_take, List.length_map]

theorem markerPrefixLenFrom_cons {k : ℕ} (hk : k ≤ s.length) :
    markerPrefixLenFrom (c :: s) marker k = markerPrefixLenFrom s marker k := by
  induction k with
  | zero => rfl
  | succ k ih =>
      have hdrop : (c :: s).drop ((c :: s).length - (k + 1)) = s.drop (s.length - (k + 1)) := by
        have hlen : (c :: s).length - (k + 1) = s.length - (k + 1) + 1 := by
          rw [List.length_cons]
          omega
        rw [hlen, List.drop_succ_cons]
      rw [markerPrefixLenFrom, markerPrefixLenFrom, hdrop, ih (by omega)]

/-- **The tail that is held back**: all of the text, if it could be the beginning of the marker, and
otherwise what is held back of the rest. -/
theorem markerPrefixLen_cons :
    markerPrefixLen (c :: s) marker =
      if PartialMarker marker (c :: s) then (c :: s).length else markerPrefixLen s marker := by
  have hlen : (c :: s).length = s.length + 1 := List.length_cons
  rcases Nat.lt_or_ge (c :: s).length marker.length with hlt | hge
  · have htop : min (c :: s).length (marker.length - 1) = s.length + 1 := by omega
    have hrest : min s.length (marker.length - 1) = s.length := by omega
    rw [markerPrefixLen, htop, markerPrefixLenFrom, hlen, Nat.sub_self, List.drop_zero,
      markerPrefixLenFrom_cons (le_refl _), markerPrefixLen, hrest, ← hlen]
    refine if_congr ?_ rfl rfl
    rw [eqIgnoreCase_take_iff]
    exact ⟨fun h => ⟨List.cons_ne_nil _ _, hlt, h⟩, fun h => h.2.2⟩
  · have hno : ¬ PartialMarker marker (c :: s) := fun h => absurd h.2.1 (by omega)
    have htop : min (c :: s).length (marker.length - 1) = marker.length - 1 := by omega
    have hrest : min s.length (marker.length - 1) = marker.length - 1 := by omega
    rw [if_neg hno, markerPrefixLen, htop, markerPrefixLenFrom_cons (by omega), markerPrefixLen,
      hrest]

theorem markerPrefixLen_nil : markerPrefixLen [] marker = 0 := by
  rw [markerPrefixLen, List.length_nil, Nat.zero_min]
  rfl

theorem markerPrefixLen_le : markerPrefixLen s marker ≤ s.length := by
  induction s with
  | nil => exact markerPrefixLen_nil.le
  | cons c s ih =>
      rw [markerPrefixLen_cons]
      split
      · exact le_refl _
      · exact ih.trans (Nat.le_succ _)

end Held

/-! ### The filter, one character at a time -/

/-- The marker that is looked for. -/
def marker (inThink : Bool) : List Char := if inThink then thinkClose else thinkOpen

theorem marker_ne_nil (inThink : Bool) : marker inThink ≠ [] := by
  cases inThink <;> exact List.cons_ne_nil _ _

section Filter

variable {inThink : Bool} {s u : List Char} {c : Char}

/-- The loop, where the marker is not found. -/
theorem loop_of_none (h : cutBehind (marker inThink) s = none) :
    ThinkFilter.loop inThink s =
      (if inThink then [] else s.take (s.length - markerPrefixLen s (marker inThink)),
        ⟨inThink, s.drop (s.length - markerPrefixLen s (marker inThink))⟩) := by
  cases inThink with
  | false =>
      have h' : cutBehind thinkOpen s = none := h
      rw [ThinkFilter.loop, if_neg Bool.false_ne_true]
      split
      · rename_i heq
        rw [h'] at heq
        cases heq
      · rfl
  | true =>
      have h' : cutBehind thinkClose s = none := h
      rw [ThinkFilter.loop, if_pos rfl]
      split
      · rename_i heq
        rw [h'] at heq
        cases heq
      · rfl

/-- The loop, where the marker is found. -/
theorem loop_of_some {before rest : List Char}
    (h : cutBehind (marker inThink) s = some (before, rest)) :
    ThinkFilter.loop inThink s =
      ((if inThink then [] else before) ++ (ThinkFilter.loop (!inThink) rest).1,
        (ThinkFilter.loop (!inThink) rest).2) := by
  cases inThink with
  | false =>
      have h' : cutBehind thinkOpen s = some (before, rest) := h
      rw [ThinkFilter.loop, if_neg Bool.false_ne_true]
      split
      · rename_i heq
        rw [h'] at heq
        cases heq
        rfl
      · rename_i heq
        rw [h'] at heq
        cases heq
  | true =>
      have h' : cutBehind thinkClose s = some (before, rest) := h
      rw [ThinkFilter.loop, if_pos rfl]
      split
      · rename_i heq
        rw [h'] at heq
        cases heq
        rfl
      · rename_i heq
        rw [h'] at heq
        cases heq

@[simp] theorem loop_nil : ThinkFilter.loop inThink [] = ([], ⟨inThink, []⟩) := by
  rw [loop_of_none (cutBehind_nil (marker_ne_nil inThink)), List.take_nil, List.drop_nil, ite_self]

/-- A marker. -/
theorem loop_marker : ThinkFilter.loop inThink (marker inThink ++ s) =
    ThinkFilter.loop (!inThink) s := by
  rw [loop_of_some (cutBehind_append _ _ (marker_ne_nil inThink)), ite_self]
  rfl

/-- A marker that is found is no longer than the text. -/
theorem cutBehind_of_lt (h : u.length < (marker inThink).length) :
    cutBehind (marker inThink) u = none := by
  cases hcut : cutBehind (marker inThink) u with
  | none => rfl
  | some r =>
      have heq := congrArg List.length (eq_append_of_cutBehind hcut)
      rw [List.length_append, List.length_append] at heq
      omega

/-- A text that could be the beginning of a marker is held back. -/
theorem loop_partialMarker (h : PartialMarker (marker inThink) u) :
    ThinkFilter.loop inThink u = ([], ⟨inThink, u⟩) := by
  obtain ⟨c, s, rfl⟩ := List.exists_cons_of_ne_nil h.1
  rw [loop_of_none (cutBehind_of_lt h.2.1), markerPrefixLen_cons, if_pos h, Nat.sub_self,
    List.take_zero, List.drop_zero, ite_self]

/-- A character with which neither a marker begins nor a tail that is held back. -/
theorem loop_cons (hmarker : ¬ marker inThink <+: c :: s)
    (hpm : ¬ PartialMarker (marker inThink) (c :: s)) :
    ThinkFilter.loop inThink (c :: s) =
      ((if inThink then [] else [c]) ++ (ThinkFilter.loop inThink s).1,
        (ThinkFilter.loop inThink s).2) := by
  have hcons := cutBehind_cons hmarker
  cases hcut : cutBehind (marker inThink) s with
  | none =>
      have hle := @markerPrefixLen_le (marker inThink) s
      have hlen : (c :: s).length - markerPrefixLen s (marker inThink) =
          s.length - markerPrefixLen s (marker inThink) + 1 := by
        rw [List.length_cons]
        omega
      rw [hcut] at hcons
      rw [loop_of_none hcons, loop_of_none hcut, markerPrefixLen_cons, if_neg hpm, hlen,
        List.take_succ_cons, List.drop_succ_cons]
      cases inThink <;> rfl
  | some r =>
      rw [hcut] at hcons
      rw [loop_of_some hcons, loop_of_some hcut]
      cases inThink <;> rfl

end Filter

/-- Induction over a text as the filter reads it. -/
theorem loop_induction {P : Bool → List Char → Prop} (nil : ∀ inThink, P inThink [])
    (marker : ∀ inThink s, P (!inThink) s → P inThink (marker inThink ++ s))
    (held : ∀ inThink u, PartialMarker (SentenceStream.marker inThink) u → P inThink u)
    (cons : ∀ inThink c s, ¬ SentenceStream.marker inThink <+: c :: s →
      ¬ PartialMarker (SentenceStream.marker inThink) (c :: s) → P inThink s → P inThink (c :: s))
    (inThink : Bool) (s : List Char) : P inThink s := by
  induction h : s.length using Nat.strong_induction_on generalizing inThink s with
  | _ n ih =>
      subst h
      cases s with
      | nil => exact nil inThink
      | cons c s =>
          by_cases hmarker : SentenceStream.marker inThink <+: c :: s
          · obtain ⟨rest, hrest⟩ := hmarker
            have hlen := List.length_pos_iff.2 (marker_ne_nil inThink)
            rw [← hrest]
            refine marker inThink rest (ih rest.length ?_ _ _ rfl)
            rw [← hrest, List.length_append]
            omega
          · by_cases hheld : PartialMarker (SentenceStream.marker inThink) (c :: s)
            · exact held inThink _ hheld
            · exact cons inThink c s hmarker hheld (ih s.length (Nat.lt_succ_self _) _ _ rfl)

/-- **A text in two pieces**: what is held back of the first is read with the second. -/
theorem loop_append (inThink : Bool) (s b : List Char) :
    ThinkFilter.loop inThink (s ++ b) =
      ((ThinkFilter.loop inThink s).1 ++ ((ThinkFilter.loop inThink s).2.push b).1,
        ((ThinkFilter.loop inThink s).2.push b).2) := by
  induction inThink, s using loop_induction with
  | nil inThink => rw [loop_nil, ThinkFilter.push]; rfl
  | marker inThink s ih => rw [List.append_assoc, loop_marker, loop_marker, ih]
  | held inThink u h => rw [loop_partialMarker h, ThinkFilter.push]; rfl
  | cons inThink c s hmarker hheld ih =>
      -- the second piece completes neither a marker nor a tail that begins here
      have hmarker' : ¬ marker inThink <+: c :: (s ++ b) := by
        intro h
        rw [← List.cons_append] at h
        rcases Nat.lt_or_ge (c :: s).length (marker inThink).length with hlt | hge
        · exact hheld (partialMarker_of_begins (List.cons_ne_nil _ _) hlt
            (List.prefix_of_prefix_length_le (List.prefix_append _ _) h hlt.le))
        · exact hmarker (List.prefix_of_prefix_length_le h (List.prefix_append _ _) hge)
      have hheld' : ¬ PartialMarker (marker inThink) (c :: (s ++ b)) := by
        intro h
        rw [← List.cons_append] at h
        exact hheld (h.of_append (List.cons_ne_nil _ _))
      rw [List.cons_append, loop_cons hmarker' hheld', loop_cons hmarker hheld, ih,
        List.append_assoc]

/-! ### The splitter -/

theorem drain_of_none {s : List Char} (h : cutSentence s = none) : drain s = ([], s) := by
  rw [drain]
  split
  · rename_i heq
    rw [h] at heq
    cases heq
  · rfl

theorem drain_of_some {s first rest : List Char} (h : cutSentence s = some (first, rest)) :
    drain s = (sentence first ++ (drain rest).1, (drain rest).2) := by
  rw [drain]
  split
  · rename_i heq
    rw [h] at heq
    cases heq
    rfl
  · rename_i heq
    rw [h] at heq
    cases heq

theorem cutSentence_append {s first rest : List Char} (h : cutSentence s = some (first, rest))
    (b : List Char) : cutSentence (s ++ b) = some (first, rest ++ b) := by
  induction s generalizing first with
  | nil => cases h
  | cons c s ih =>
      rw [List.cons_append, cutSentence]
      rw [cutSentence] at h
      split at h
      · rename_i hc
        cases h
        rw [if_pos hc]
      · rename_i hc
        obtain ⟨r, hr, heq⟩ := Option.map_eq_some_iff.1 h
        cases heq
        rw [if_neg hc, ih hr]
        rfl

theorem eq_append_of_cutSentence {s first rest : List Char}
    (h : cutSentence s = some (first, rest)) : s = first ++ rest := by
  induction s generalizing first with
  | nil => cases h
  | cons c s ih =>
      rw [cutSentence] at h
      split at h
      · cases h
        rfl
      · obtain ⟨r, hr, heq⟩ := Option.map_eq_some_iff.1 h
        cases heq
        rw [ih hr, List.cons_append]

/-- Induction over a text as the splitter reads it. -/
theorem drain_induction {P : List Char → Prop} (last : ∀ s, cutSentence s = none → P s)
    (cut : ∀ s first rest, cutSentence s = some (first, rest) → P rest → P s) (s : List Char) :
    P s := by
  induction h : s.length using Nat.strong_induction_on generalizing s with
  | _ n ih =>
      subst h
      cases hcut : cutSentence s with
      | none => exact last s hcut
      | some r => exact cut s r.1 r.2 hcut (ih _ (length_cutSentence hcut) _ rfl)

/-- **A text in two pieces**: what is left of the first is read with the second. -/
theorem drain_append (s b : List Char) :
    drain (s ++ b) = ((drain s).1 ++ (drain ((drain s).2 ++ b)).1, (drain ((drain s).2 ++ b)).2) := by
  induction s using drain_induction with
  | last s h => rw [drain_of_none h, List.nil_append]
  | cut s first rest h ih =>
      rw [drain_of_some (cutSentence_append h b), drain_of_some h, ih, List.append_assoc]

/-- The sentences and the rest are the text. -/
theorem withoutWhitespace_drain (s : List Char) :
    withoutWhitespace ((drain s).1.flatten ++ (drain s).2) = withoutWhitespace s := by
  induction s using drain_induction with
  | last s h => rw [drain_of_none h]; rfl
  | cut s first rest h ih =>
      have hfirst : withoutWhitespace (sentence first).flatten = withoutWhitespace first := by
        rw [sentence]
        split
        · rename_i htrim
          rw [← withoutWhitespace_trim first, htrim]
          rfl
        · rw [List.flatten_singleton, withoutWhitespace_trim]
      rw [drain_of_some h, eq_append_of_cutSentence h, List.flatten_append, List.append_assoc,
        withoutWhitespace_append, hfirst, ih, withoutWhitespace_append]

/-! ### All deltas -/

/-- What a filter holds back after some text, it holds back again. -/
theorem loop_settled (inThink : Bool) (s : List Char) :
    (ThinkFilter.loop inThink s).2.push [] = ([], (ThinkFilter.loop inThink s).2) := by
  have h := loop_append inThink s []
  rw [List.append_nil] at h
  refine Prod.ext ?_ (congrArg Prod.snd h).symm
  exact List.self_eq_append_right.1 (congrArg Prod.fst h)

/-- What a splitter has left after some text, it has left again. -/
theorem drain_settled (s : List Char) : drain (drain s).2 = ([], (drain s).2) := by
  have h := drain_append s []
  rw [List.append_nil, List.append_nil] at h
  refine Prod.ext ?_ (congrArg Prod.snd h).symm
  exact List.self_eq_append_right.1 (congrArg Prod.fst h)

/-- **The deltas one after the other** are their text at once. -/
theorem pushAll_eq {filter : ThinkFilter} {splitter : SentenceSplitter}
    (hfilter : filter.push [] = ([], filter)) (hsplitter : drain splitter = ([], splitter))
    (deltas : List (List Char)) :
    pushAll filter splitter deltas =
      ((SentenceSplitter.push splitter (filter.push deltas.flatten).1).1,
        (filter.push deltas.flatten).2,
        (SentenceSplitter.push splitter (filter.push deltas.flatten).1).2) := by
  induction deltas generalizing filter splitter with
  | nil =>
      rw [List.flatten_nil, hfilter, SentenceSplitter.push, List.append_nil, hsplitter]
      rfl
  | cons delta deltas ih =>
      have hloop := loop_append filter.inThink (filter.pending ++ delta) deltas.flatten
      rw [List.append_assoc] at hloop
      have hpush : filter.push (delta ++ deltas.flatten) =
          ((filter.push delta).1 ++ ((filter.push delta).2.push deltas.flatten).1,
            ((filter.push delta).2.push deltas.flatten).2) := hloop
      have hdrain := drain_append (splitter ++ (filter.push delta).1)
        ((filter.push delta).2.push deltas.flatten).1
      rw [List.append_assoc] at hdrain
      have hfilter' : (filter.push delta).2.push [] = ([], (filter.push delta).2) :=
        loop_settled _ _
      have hsplitter' : drain (SentenceSplitter.push splitter (filter.push delta).1).2 =
          ([], (SentenceSplitter.push splitter (filter.push delta).1).2) := drain_settled _
      rw [pushAll]
      dsimp only
      rw [ih hfilter' hsplitter', List.flatten_cons, hpush]
      simp only [SentenceSplitter.push]
      rw [hdrain]

/-- **The sentences of some deltas** are those of their text. -/
theorem stream_eq (deltas : List (List Char)) :
    stream deltas =
      ((drain (ThinkFilter.loop false deltas.flatten).1).1 ++
          (SentenceSplitter.flush (drain (ThinkFilter.loop false deltas.flatten).1).2).1.toList,
        (ThinkFilter.loop false deltas.flatten).2.inThink) := by
  have hfilter : ThinkFilter.push {} [] = ([], {}) := loop_nil
  have hsplitter : drain ([] : List Char) = ([], []) := drain_of_none rfl
  rw [stream, pushAll_eq hfilter hsplitter]
  rfl

theorem withoutWhitespace_flush (buf : SentenceSplitter) :
    withoutWhitespace (SentenceSplitter.flush buf).1.toList.flatten = withoutWhitespace buf := by
  rw [SentenceSplitter.flush]
  split
  · rename_i htrim
    rw [← withoutWhitespace_trim buf, htrim]
    rfl
  · rw [Option.toList_some, List.flatten_singleton, withoutWhitespace_trim]

/-- The sentences are the visible text. -/
theorem withoutWhitespace_stream (deltas : List (List Char)) :
    withoutWhitespace (stream deltas).1.flatten =
      withoutWhitespace (ThinkFilter.loop false deltas.flatten).1 := by
  rw [stream_eq, List.flatten_append, withoutWhitespace_append, withoutWhitespace_flush,
    ← withoutWhitespace_append, withoutWhitespace_drain]

/-! ### A text without markers -/

section Tail

variable {m u s : List Char}

/-- The tail that is held back. -/
def heldTail (m s : List Char) : List Char := s.drop (s.length - markerPrefixLen s m)

theorem heldTail_cons {c : Char} : heldTail m (c :: s) =
    if PartialMarker m (c :: s) then c :: s else heldTail m s := by
  rw [heldTail, markerPrefixLen_cons]
  split
  · rw [Nat.sub_self, List.drop_zero]
  · have hle := @markerPrefixLen_le m s
    have hlen : (c :: s).length - markerPrefixLen s m = s.length - markerPrefixLen s m + 1 := by
      rw [List.length_cons]
      omega
    rw [hlen, List.drop_succ_cons, heldTail]

theorem heldTail_suffix : heldTail m s <:+ s := List.drop_suffix _ _

theorem partialMarker_heldTail (h : heldTail m s ≠ []) : PartialMarker m (heldTail m s) := by
  induction s with
  | nil => exact absurd List.drop_nil h
  | cons c s ih =>
      rw [heldTail_cons] at h ⊢
      split
      · assumption
      · rename_i hno
        rw [if_neg hno] at h
        exact ih h

/-- Every tail that could be the beginning of the marker is in the one that is held back. -/
theorem suffix_heldTail (hu : PartialMarker m u) (h : u <:+ s) : u <:+ heldTail m s := by
  induction s with
  | nil => exact absurd (List.suffix_nil.1 h) hu.1
  | cons c s ih =>
      rw [heldTail_cons]
      split
      · exact h
      · rename_i hno
        rcases List.suffix_cons_iff.1 h with rfl | h
        · exact absurd hu hno
        · exact ih h

end Tail

theorem toLower_of_isWhitespace {c : Char} (h : isWhitespace c = true) : c.toLower = c := by
  have hupper : ¬ (0x41 ≤ c.toNat ∧ c.toNat ≤ 0x5A) := by
    rintro ⟨h1, h2⟩
    simp only [isWhitespace, Bool.or_eq_true, Bool.and_eq_true, decide_eq_true_eq, beq_iff_eq] at h
    omega
  refine dif_neg fun hc => ?_
  exact hupper ⟨UInt32.le_iff_toNat_le.1 hc.1, UInt32.le_iff_toNat_le.1 hc.2⟩

/-- The characters of a marker are no white space, in either case. -/
theorem isWhitespace_of_toLower {c : Char} (h : c.toLower ∈ thinkOpen) : isWhitespace c = false := by
  by_contra hc
  rw [Bool.not_eq_false] at hc
  rw [toLower_of_isWhitespace hc] at h
  have hmarker : ∀ d ∈ thinkOpen, (!isWhitespace d) = true := List.all_eq_true.1 (by decide)
  have hnot := hmarker c h
  rw [hc] at hnot
  cases hnot

theorem map_toLower_thinkOpen : thinkOpen.map Char.toLower = thinkOpen := by decide

/-- A tail that is held back has no white space. -/
theorem withoutWhitespace_of_partialMarker {u : List Char} (h : PartialMarker thinkOpen u) :
    withoutWhitespace u = u := by
  refine withoutWhitespace_eq_self fun c hc => isWhitespace_of_toLower ?_
  rw [← map_toLower_thinkOpen]
  exact h.2.2.subset (List.mem_map_of_mem hc)

/-- A held tail has no white space. -/
theorem withoutWhitespace_heldTail (s : List Char) :
    withoutWhitespace (heldTail thinkOpen s) = heldTail thinkOpen s := by
  by_cases hnil : heldTail thinkOpen s = []
  · rw [hnil]
    rfl
  · exact withoutWhitespace_of_partialMarker (partialMarker_heldTail hnil)

/-- The text that is given out, and the tail that is held back. -/
theorem take_append_heldTail (m s : List Char) :
    s.take (s.length - markerPrefixLen s m) ++ heldTail m s = s := List.take_append_drop _ s

/-- The sentences of a text without the opening marker are the text but for its held tail. -/
theorem withoutWhitespace_stream_heldTail {deltas : List (List Char)}
    (h : ¬ thinkOpen <:+: deltas.flatten) :
    withoutWhitespace deltas.flatten =
      withoutWhitespace (stream deltas).1.flatten ++ heldTail thinkOpen deltas.flatten := by
  have hloop := @loop_of_none false _ ((cutBehind_eq_none_iff (List.cons_ne_nil _ _)).2 h)
  rw [withoutWhitespace_stream, hloop, if_neg Bool.false_ne_true]
  conv_lhs => rw [← take_append_heldTail thinkOpen deltas.flatten]
  rw [withoutWhitespace_append, withoutWhitespace_heldTail]
  rfl

/-- **What is lost of a text without markers**: the sentences, and whether a block is open, do not
depend on the cut; and the text that is not given out is a proper prefix of the marker, in its own
case, exactly if every tail of the text is one that is one up to case. -/
theorem stream_cutIndependent_iff (t : List Char) :
    (∀ ds ds' : List (List Char), ds.flatten = t → ds'.flatten = t → stream ds = stream ds') ∧
    (¬ thinkOpen <:+: t →
      ((∀ ds : List (List Char), ds.flatten = t → ∃ p, p <+: thinkOpen ∧ p ≠ thinkOpen ∧
          withoutWhitespace t = withoutWhitespace (stream ds).1.flatten ++ p) ↔
        ∀ u, u <:+ t → PartialMarker thinkOpen u → u <+: thinkOpen)) := by
  constructor
  · rintro ds ds' rfl h
    rw [stream_eq, stream_eq, h]
  · intro hopen
    constructor
    · intro h u hu hpm
      obtain ⟨p, hp, -, htext⟩ := h [t] (List.flatten_singleton ..)
      rw [← @List.flatten_singleton _ t] at hopen
      have hheld := withoutWhitespace_stream_heldTail hopen
      rw [List.flatten_singleton] at hheld
      obtain rfl : heldTail thinkOpen t = p := List.append_cancel_left (hheld.symm.trans htext)
      -- a tail of a prefix of the marker is in its own case
      have hmarker : ∀ c ∈ thinkOpen, c.toLower = id c :=
        List.map_inj_left.1 (map_toLower_thinkOpen.trans (List.map_id _).symm)
      have hlower : u.map Char.toLower = u := by
        refine (List.map_congr_left fun c hc => ?_).trans (List.map_id u)
        exact hmarker c (hp.subset ((suffix_heldTail hpm hu).subset hc))
      rw [← hlower, ← map_toLower_thinkOpen]
      exact hpm.2.2
    · rintro h ds rfl
      refine ⟨heldTail thinkOpen ds.flatten, ?_, ?_, withoutWhitespace_stream_heldTail hopen⟩
      · by_cases hnil : heldTail thinkOpen ds.flatten = []
        · rw [hnil]
          exact List.nil_prefix
        · exact h _ heldTail_suffix (partialMarker_heldTail hnil)
      · by_cases hnil : heldTail thinkOpen ds.flatten = []
        · rw [hnil]
          exact (List.cons_ne_nil _ _).symm
        · intro heq
          have hlt := (partialMarker_heldTail hnil).2.1
          rw [heq] at hlt
          exact lt_irrefl _ hlt

/-- A sentence and a tail in the case of the marker. -/
theorem stream_cutIndependent_iff_tail :
    stream [['A', '!', ' '], ['<', 't']] = stream [['A'], ['!', ' ', '<'], ['t']] ∧
    ∃ p, p <+: thinkOpen ∧ p ≠ thinkOpen ∧ withoutWhitespace ['A', '!', ' ', '<', 't'] =
      withoutWhitespace (stream [['A'], ['!', ' ', '<'], ['t']]).1.flatten ++ p := by
  have hboth := stream_cutIndependent_iff ['A', '!', ' ', '<', 't']
  have htails : ∀ u ∈ ['A', '!', ' ', '<', 't'].tails, PartialMarker thinkOpen u → u <+: thinkOpen := by
    decide
  refine ⟨hboth.1 _ _ rfl rfl, (hboth.2 (by decide)).2 (fun u hu => ?_) _ rfl⟩
  exact htails u ((List.mem_tails u _).2 hu)

/-- A tail in another case is held back, and lost. -/
theorem upperCase_lost :
    ¬ thinkOpen <:+: ['<', 'T'] ∧ (stream [['<', 'T']]).1 = [] ∧
      ¬ ∃ p, p <+: thinkOpen ∧ p ≠ thinkOpen ∧ withoutWhitespace ['<', 'T'] =
        withoutWhitespace (stream [['<', 'T']]).1.flatten ++ p := by
  have hstream : (stream [['<', 'T']]).1 = [] := by decide +kernel
  refine ⟨by decide, hstream, ?_⟩
  rintro ⟨p, hp, -, htext⟩
  rw [hstream] at htext
  obtain rfl : ['<', 'T'] = p := htext
  revert hp
  decide

end SentenceStream
