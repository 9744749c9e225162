/-
**The speaker of a reply.**

The reply of the model on the device is spoken while it is generated.  The speaker task of
`src/runtime/voice_bridge.rs` takes its deltas, cuts them into sentences, and keeps one synthesis ahead of
the player: a sentence is played when the synthesis of the next one has begun.  It looks at the flag of its
round at each delta and in front of each sentence, and mutes the microphone while it plays
(`speak_pending_sentence`).

Main definitions:

* `SpokenReply.World` — the engine, the player and the flag, which may do anything;
* `SpokenReply.speak` — the speaker task, with a trace of what it does;
* `SpokenReply.deaf` — the microphone, along a trace;
* `SpokenReply.pipeline` — the sentences one ahead of the other.

Main results:

* `SpokenReply.speak_sentences` — **what is synthesized, played and spoken are sentences of the reply, in
  their order**, whatever the world does, and nothing is played to an open microphone;
* `SpokenReply.speak_undisturbed` — **the pipeline says what was to be said**: all sentences of the reply,
  each of them synthesized before the one in front of it is played.
-/

import MibeeEye.SentenceStream
import Mathlib.Data.List.Infix

set_option relaxedAutoImplicit false
set_option autoImplicit false

namespace SpokenReply

open SentenceStream

variable {W : Type}

/-- The sentence of a synthesis, or of the player. -/
abbrev Sentence := List Char

/-- The flag of the round, which is set for good, the synthesis of a sentence, and its playback; each of
them tells whether it came to its end. -/
structure World (W : Type) where
  cancelled : W → Bool × W
  synthesized : W → Sentence → Bool × W
  played : W → Sentence → Bool × W
  stays : ∀ w, (cancelled w).1 = true → (cancelled (cancelled w).2).1 = true

/-- What the speaker does. -/
inductive Action
  | synthesize (sentence : Sentence)
  | mute
  | play (sentence : Sentence)
  | unmute
  deriving DecidableEq

/-- The speaker: `spoken` are the sentences of `spoken_prefix`, which `sentences` counts. -/
structure Speaker (W : Type) where
  world : W
  first : Bool := true
  ahead : Option Sentence := none
  spoken : List Sentence := []
  trace : List Action := []

/-- `speak_pending_sentence` -/
def speakPending (env : World W) (s : Speaker W) (sentence : Sentence) : Speaker W :=
  let (synthesized, w) := env.synthesized s.world sentence
  if synthesized then
    let (cancelled, w) := env.cancelled w
    if cancelled then { s with world := w }
    else
      let (played, w) := env.played w sentence
      { s with
        world := w
        first := false
        spoken := if played then s.spoken ++ [sentence] else s.spoken
        trace := s.trace ++ ((if s.first then [.mute] else []) ++ [.play sentence]) }
  else { s with world := w }

/-- The sentence that is ahead is spoken. -/
def speakAhead (env : World W) (s : Speaker W) : Speaker W :=
  match s.ahead with
  | some sentence => { speakPending env s sentence with ahead := none }
  | none => s

/-- A new sentence: its synthesis begins, the one that is ahead is spoken, and it is ahead. -/
def take (env : World W) (s : Speaker W) (sentence : Sentence) : Speaker W :=
  { speakAhead env { s with trace := s.trace ++ [.synthesize sentence] } with ahead := some sentence }

/-- The loop of the speaker, over the deltas that come until the channel is closed. -/
@[grind =]
def loop (env : World W) (filter : ThinkFilter) (splitter : SentenceSplitter) (s : Speaker W) :
    List (List Char) → Speaker W × SentenceSplitter
  | [] => (s, splitter)
  | delta :: deltas =>
      let (cancelled, w) := env.cancelled s.world
      if cancelled then ({ s with world := w }, splitter)
      else
        let (visible, filter) := filter.push delta
        let (out, splitter) := SentenceSplitter.push splitter visible
        loop env filter splitter (out.foldl (take env) { s with world := w }) deltas

/-- What the speaker does behind its loop. -/
def finish (env : World W) (s : Speaker W) (splitter : SentenceSplitter) : Speaker W :=
  let (cancelled, w) := env.cancelled s.world
  let s := { s with world := w }
  let s :=
    if cancelled then s
    else speakAhead env ((SentenceSplitter.flush splitter).1.toList.foldl (take env) s)
  if s.first then s else { s with trace := s.trace ++ [.unmute] }

/-- The speaker task. -/
def speak (env : World W) (w : W) (deltas : List (List Char)) : Speaker W :=
  let (s, splitter) := loop env {} [] { world := w } deltas
  finish env s splitter

/-! ### Traces -/

/-- The sentences whose synthesis began. -/
def synthesized : List Action → List Sentence :=
  List.filterMap fun
    | .synthesize sentence => some sentence
    | _ => none

/-- The sentences that were played, as far as they were. -/
def played : List Action → List Sentence :=
  List.filterMap fun
    | .play sentence => some sentence
    | _ => none

/-- The microphone along a trace: whether it is muted, unless a sentence is played while it is not, or it is
muted or opened twice. -/
def deaf : Bool → List Action → Option Bool
  | muted, [] => some muted
  | muted, .synthesize _ :: as => deaf muted as
  | false, .mute :: as => deaf true as
  | true, .play _ :: as => deaf true as
  | true, .unmute :: as => deaf false as
  | true, .mute :: _ | false, .play _ :: _ | false, .unmute :: _ => none

theorem deaf_append (muted : Bool) (as bs : List Action) :
    deaf muted (as ++ bs) = (deaf muted as).bind fun muted => deaf muted bs := by
  induction as generalizing muted with
  | nil => rfl
  | cons a as ih => cases a <;> cases muted <;> first | rfl | exact ih _

@[simp] theorem synthesized_append (as bs : List Action) :
    synthesized (as ++ bs) = synthesized as ++ synthesized bs := List.filterMap_append

@[simp] theorem played_append (as bs : List Action) : played (as ++ bs) = played as ++ played bs :=
  List.filterMap_append

/-! ### Whatever the world does -/

variable {env : World W} {s : Speaker W}

/-- What is played and spoken are some of the sentences that were taken before the one ahead, and the
microphone is muted from the first of them on. -/
structure Speaks (s : Speaker W) (before : List Sentence) : Prop where
  played : (played s.trace).Sublist before
  spoken : s.spoken.Sublist (SpokenReply.played s.trace)
  deaf : deaf false s.trace = some !s.first

/-- **The invariant of the speaker**: every sentence is taken when its synthesis begins. -/
def Keeps (s : Speaker W) : Prop := ∃ before, Speaks s before ∧ synthesized s.trace = before ++ s.ahead.toList

/-- What came of a sentence that was ahead: nothing, or it was played, to its end or not. -/
theorem speakPending_cases (env : World W) (s : Speaker W) (x : Sentence) :
    (∃ w, speakPending env s x = { s with world := w }) ∨
    ∃ w said, (said = [] ∨ said = [x]) ∧ speakPending env s x =
      { s with
        world := w
        first := false
        spoken := s.spoken ++ said
        trace := s.trace ++ ((if s.first then [.mute] else []) ++ [.play x]) } := by
  simp only [speakPending]
  split
  · split
    · exact .inl ⟨_, rfl⟩
    · split
      · exact .inr ⟨_, [x], .inr rfl, rfl⟩
      · exact .inr ⟨_, [], .inl rfl, by rw [List.append_nil]⟩
  · exact .inl ⟨_, rfl⟩

/-- The trace of a sentence that is played. -/
theorem played_play (first : Bool) (x : Sentence) :
    synthesized ((if first then [.mute] else []) ++ [.play x]) = [] ∧
      played ((if first then [.mute] else []) ++ [.play x]) = [x] ∧
      deaf (!first) ((if first then [.mute] else []) ++ [.play x]) = some true := by
  cases first <;> exact ⟨rfl, rfl, rfl⟩

theorem speaks_speakAhead {before : List Sentence} (env : World W) (h : Speaks s before) :
    Speaks (speakAhead env s) (before ++ s.ahead.toList) ∧
      synthesized (speakAhead env s).trace = synthesized s.trace := by
  cases hahead : s.ahead with
  | none =>
      have hcall : speakAhead env s = s := by rw [speakAhead, hahead]
      rw [hcall, Option.toList_none, List.append_nil]
      exact ⟨h, rfl⟩
  | some x =>
      have hcall : speakAhead env s = { speakPending env s x with ahead := none } := by
        rw [speakAhead, hahead]
      rw [hcall]
      rcases speakPending_cases env s x with ⟨w, hcall⟩ | ⟨w, said, hsaid, hcall⟩
      · rw [hcall]
        exact ⟨⟨h.played.trans (List.sublist_append_left _ _), h.spoken, h.deaf⟩, rfl⟩
      · obtain ⟨hsynthesized, hplayed, hdeaf⟩ := played_play s.first x
        have hsub : said.Sublist [x] := by
          rcases hsaid with rfl | rfl
          · exact List.nil_sublist _
          · exact List.Sublist.refl _
        rw [hcall]
        refine ⟨⟨?_, ?_, ?_⟩, ?_⟩
        · rw [played_append, hplayed]
          exact h.played.append (List.Sublist.refl _)
        · rw [played_append, hplayed]
          exact h.spoken.append hsub
        · rw [deaf_append, h.deaf]
          exact hdeaf
        · rw [synthesized_append, hsynthesized, List.append_nil]

/-- A look at the flag changes nothing else. -/
theorem Keeps.look (h : Keeps s) (w : W) : Keeps { s with world := w } := by
  obtain ⟨before, hspeaks, hsynthesized⟩ := h
  exact ⟨before, ⟨hspeaks.played, hspeaks.spoken, hspeaks.deaf⟩, hsynthesized⟩

/-- A sentence more. -/
theorem keeps_take (env : World W) (h : Keeps s) (x : Sentence) :
    Keeps (take env s x) ∧ synthesized (take env s x).trace = synthesized s.trace ++ [x] := by
  obtain ⟨before, hspeaks, hsynthesized⟩ := h
  have hbegun : Speaks { s with trace := s.trace ++ [.synthesize x] } before := by
    refine ⟨?_, ?_, ?_⟩
    · simpa [played] using hspeaks.played
    · simpa [played] using hspeaks.spoken
    · rw [deaf_append, hspeaks.deaf]
      rfl
  obtain ⟨hahead, hsame⟩ := speaks_speakAhead env hbegun
  have hx : synthesized (take env s x).trace = synthesized s.trace ++ [x] := by
    simpa [take, synthesized] using hsame
  refine ⟨⟨_, ⟨hahead.played, hahead.spoken, hahead.deaf⟩, ?_⟩, hx⟩
  rw [hx, hsynthesized]
  rfl

theorem keeps_foldl (env : World W) (out : List Sentence) (h : Keeps s) :
    Keeps (out.foldl (take env) s) ∧
      synthesized (out.foldl (take env) s).trace = synthesized s.trace ++ out := by
  induction out generalizing s with
  | nil => exact ⟨h, by simp⟩
  | cons x out ih =>
      obtain ⟨htake, hx⟩ := keeps_take env h x
      obtain ⟨hfold, hout⟩ := ih htake
      exact ⟨hfold, by simpa [hx] using hout⟩

/-- The sentences of the deltas that the speaker took: all of them, unless the flag was found set. -/
theorem keeps_loop (env : World W) (filter : ThinkFilter) (splitter : SentenceSplitter)
    (deltas : List (List Char)) (h : Keeps s) :
    ∃ s' splitter', loop env filter splitter s deltas = (s', splitter') ∧ Keeps s' ∧
      ((env.cancelled s'.world).1 = true ∧
        synthesized s'.trace <+: synthesized s.trace ++ (pushAll filter splitter deltas).1 ∨
      splitter' = (pushAll filter splitter deltas).2.2 ∧
        synthesized s'.trace = synthesized s.trace ++ (pushAll filter splitter deltas).1) := by
  induction deltas generalizing filter splitter s with
  | nil => exact ⟨s, splitter, rfl, h, .inr ⟨rfl, by simp [pushAll]⟩⟩
  | cons delta deltas ih =>
      simp only [loop]
      split
      · rename_i hcancelled
        exact ⟨_, _, rfl, h.look _, .inl ⟨env.stays _ hcancelled, List.prefix_append _ _⟩⟩
      · obtain ⟨hfold, hout⟩ := keeps_foldl env
          (SentenceSplitter.push splitter (filter.push delta).1).1 (h.look (env.cancelled s.world).2)
        obtain ⟨s', splitter', hloop, hkeeps, hend⟩ := ih (filter.push delta).2
          (SentenceSplitter.push splitter (filter.push delta).1).2 hfold
        refine ⟨s', splitter', hloop, hkeeps, ?_⟩
        rw [hout, List.append_assoc] at hend
        exact hend

/-- What the speaker does behind its loop: the microphone is opened, and the rest is spoken, unless the flag is
set. -/
theorem keeps_finish (env : World W) (h : Keeps s) (splitter : SentenceSplitter) :
    (played (finish env s splitter).trace).Sublist (synthesized (finish env s splitter).trace) ∧
    (finish env s splitter).spoken.Sublist (played (finish env s splitter).trace) ∧
    deaf false (finish env s splitter).trace = some false ∧
    synthesized (finish env s splitter).trace = synthesized s.trace ++
      if (env.cancelled s.world).1 then [] else (SentenceSplitter.flush splitter).1.toList := by
  -- the speaker before the microphone is opened
  obtain ⟨u, hu, before, hspeaks, hbefore, hsynthesized⟩ : ∃ u : Speaker W,
      finish env s splitter = (if u.first then u else { u with trace := u.trace ++ [.unmute] }) ∧
      ∃ before, Speaks u before ∧ before.Sublist (synthesized u.trace) ∧
        synthesized u.trace = synthesized s.trace ++
          if (env.cancelled s.world).1 then [] else (SentenceSplitter.flush splitter).1.toList := by
    simp only [finish]
    split
    · obtain ⟨before, hspeaks, hsynthesized⟩ := h.look (env.cancelled s.world).2
      exact ⟨_, rfl, before, hspeaks, hsynthesized ▸ List.sublist_append_left _ _, (List.append_nil _).symm⟩
    · obtain ⟨⟨before, hspeaks, hsynthesized⟩, hout⟩ := keeps_foldl env
        (SentenceSplitter.flush splitter).1.toList (h.look (env.cancelled s.world).2)
      obtain ⟨hahead, hsame⟩ := speaks_speakAhead env hspeaks
      refine ⟨_, rfl, _, hahead, ?_, hsame.trans hout⟩
      rw [hsame, hsynthesized]
  have hplayed := hspeaks.played.trans hbefore
  have hopened : synthesized (u.trace ++ [.unmute]) = synthesized u.trace ∧
      played (u.trace ++ [.unmute]) = played u.trace :=
    ⟨(synthesized_append _ _).trans (List.append_nil _), (played_append _ _).trans (List.append_nil _)⟩
  have hdeaf := hspeaks.deaf
  rw [hu]
  cases hfirst : u.first with
  | true =>
      rw [hfirst] at hdeaf
      exact ⟨hplayed, hspeaks.spoken, hdeaf, hsynthesized⟩
  | false =>
      rw [hfirst] at hdeaf
      simp only [Bool.false_eq_true, if_false, hopened]
      refine ⟨hplayed, hspeaks.spoken, ?_, hsynthesized⟩
      rw [deaf_append, hdeaf]
      rfl

/-- The flag is not set, and every sentence is synthesized and played. -/
structure World.Calm (env : World W) : Prop where
  cancelled : ∀ w, (env.cancelled w).1 = false
  synthesized : ∀ w x, (env.synthesized w x).1 = true
  played : ∀ w x, (env.played w x).1 = true

/-- **The pipeline**, with the sentence that is ahead: a sentence is played when the synthesis of the next one
has begun, and the last one when there is none. -/
@[grind =] def pipeline : Bool → Option Sentence → List Sentence → List Action
  | true, none, [] => []
  | false, none, [] => [.unmute]
  | true, some x, [] => [.mute, .play x, .unmute]
  | false, some x, [] => [.play x, .unmute]
  | first, none, y :: ys => .synthesize y :: pipeline first (some y) ys
  | true, some x, y :: ys => .synthesize y :: .mute :: .play x :: pipeline false (some y) ys
  | false, some x, y :: ys => .synthesize y :: .play x :: pipeline false (some y) ys

/-- What the speaker will have done and said in a calm world when these sentences have come. -/
def Speaker.outlook (s : Speaker W) (out : List Sentence) : List Action × List Sentence :=
  (s.trace ++ pipeline s.first s.ahead out, s.spoken ++ (s.ahead.toList ++ out))

/-- A sentence that is spoken in a calm world is played, and said. -/
theorem speakPending_calm (h : env.Calm) (s : Speaker W) (x : Sentence) :
    (speakPending env s x).first = false ∧ (speakPending env s x).spoken = s.spoken ++ [x] ∧
      (speakPending env s x).trace = s.trace ++ ((if s.first then [.mute] else []) ++ [.play x]) := by
  simp [speakPending, h.cancelled, h.synthesized, h.played]

/-- A sentence that comes was to come. -/
theorem outlook_take (h : env.Calm) (s : Speaker W) (x : Sentence) (out : List Sentence) :
    (take env s x).outlook out = s.outlook (x :: out) := by
  cases hahead : s.ahead with
  | none => cases hfirst : s.first <;> simp [take, speakAhead, Speaker.outlook, pipeline, hahead, hfirst]
  | some y =>
      cases hfirst : s.first <;>
        simp [take, speakAhead, speakPending_calm h, Speaker.outlook, pipeline, hahead, hfirst]

theorem outlook_foldl (h : env.Calm) (s : Speaker W) (xs out : List Sentence) :
    (xs.foldl (take env) s).outlook out = s.outlook (xs ++ out) := by
  induction xs generalizing s with
  | nil => rfl
  | cons x xs ih => rw [List.foldl_cons, ih, outlook_take h, List.cons_append]

/-- The loop takes all deltas. -/
theorem outlook_loop (h : env.Calm) (filter : ThinkFilter) (splitter : SentenceSplitter) (s : Speaker W)
    (deltas : List (List Char)) (out : List Sentence) :
    (loop env filter splitter s deltas).1.outlook out =
      s.outlook ((pushAll filter splitter deltas).1 ++ out) ∧
    (loop env filter splitter s deltas).2 = (pushAll filter splitter deltas).2.2 := by
  induction deltas generalizing filter splitter s with
  | nil => exact ⟨rfl, rfl⟩
  | cons delta deltas ih =>
      simp only [loop, h.cancelled, Bool.false_eq_true, if_false, pushAll]
      obtain ⟨hlook, hsplitter⟩ := ih (filter.push delta).2
        (SentenceSplitter.push splitter (filter.push delta).1).2
        ((SentenceSplitter.push splitter (filter.push delta).1).1.foldl (take env)
          { s with world := (env.cancelled s.world).2 })
      refine ⟨?_, hsplitter⟩
      rw [hlook, outlook_foldl h, List.append_assoc]
      rfl

/-- The sentence that is ahead is the last one. -/
theorem outlook_finish (h : env.Calm) (s : Speaker W) (splitter : SentenceSplitter) :
    ((finish env s splitter).trace, (finish env s splitter).spoken) =
      s.outlook (SentenceSplitter.flush splitter).1.toList := by
  have hfold := outlook_foldl h { s with world := (env.cancelled s.world).2 }
    (SentenceSplitter.flush splitter).1.toList []
  rw [List.append_nil] at hfold
  have hlast : ∀ u : Speaker W,
      ((if (speakAhead env u).first then speakAhead env u
        else { speakAhead env u with trace := (speakAhead env u).trace ++ [.unmute] }).trace,
        (speakAhead env u).spoken) = u.outlook [] := by
    intro u
    cases hahead : u.ahead with
    | none => cases hfirst : u.first <;> simp [speakAhead, Speaker.outlook, pipeline, hahead, hfirst]
    | some x =>
        cases hfirst : u.first <;>
          simp [speakAhead, speakPending_calm h, Speaker.outlook, pipeline, hahead, hfirst]
  rw [show s.outlook (SentenceSplitter.flush splitter).1.toList =
    ({ s with world := (env.cancelled s.world).2 } : Speaker W).outlook
      (SentenceSplitter.flush splitter).1.toList from rfl, ← hfold, ← hlast]
  simp only [finish, h.cancelled, Bool.false_eq_true, if_false]
  split
  · rfl
  · rfl

/-- **The pipeline says what was to be said**: where nothing fails and the round is not cancelled, all
sentences of the reply are spoken, and each is played when the synthesis of the next one has begun. -/
theorem speak_undisturbed (h : env.Calm) (w : W) (deltas : List (List Char)) :
    (speak env w deltas).spoken = (stream deltas).1 ∧
    (speak env w deltas).trace = pipeline true none (stream deltas).1 := by
  obtain ⟨hlook, hsplitter⟩ := outlook_loop h {} [] { world := w } deltas
    (SentenceSplitter.flush (pushAll {} [] deltas).2.2).1.toList
  have hfinish := outlook_finish h (loop env {} [] { world := w } deltas).1
    (loop env {} [] { world := w } deltas).2
  have hspeak : speak env w deltas =
      finish env (loop env {} [] { world := w } deltas).1 (loop env {} [] { world := w } deltas).2 := rfl
  rw [hspeak]
  rw [hsplitter] at hfinish ⊢
  rw [hlook] at hfinish
  exact ⟨congrArg Prod.snd hfinish, congrArg Prod.fst hfinish⟩

/-- A world in which nothing happens. -/
def quiet : World Unit where
  cancelled := fun _ => (false, ())
  synthesized := fun _ _ => (true, ())
  played := fun _ _ => (true, ())
  stays := fun _ h => h

theorem speak_quiet :
    (speak quiet () ["Hel".toList, "lo! It is noon".toList]).spoken =
      (stream ["Hel".toList, "lo! It is noon".toList]).1 ∧
    (speak quiet () ["Hel".toList, "lo! It is noon".toList]).trace =
      pipeline true none (stream ["Hel".toList, "lo! It is noon".toList]).1 :=
  speak_undisturbed ⟨fun _ => rfl, fun _ _ => rfl, fun _ _ => rfl⟩ () _

/-- Two sentences. -/
example : pipeline true none ["Hello!".toList, "It is noon".toList] =
    [.synthesize "Hello!".toList, .synthesize "It is noon".toList, .mute, .play "Hello!".toList,
      .play "It is noon".toList, .unmute] := rfl

end SpokenReply
