/-
**Which stream a uri names.**

`find_stream_by_uri` and `find_live_stream` look through hash maps, and the order in which a hash
map is visited is not fixed.  A registry is a list of entries with different keys; an iteration of
it is any permutation of the list.

A uri of the protocol is a path, with or without `rtsp://host:port` before it.  The path names a
mount when it is the path of the mount or goes on after it with a slash; of several such mounts the
longest is meant.  The code looks for the path of a mount anywhere in the uri instead, so that a
mount may be found whose path stands in the uri at another place or ends inside a name.

Main definitions:

* `RtspServer.Registry`, `RtspServer.RequestUri` — what is looked through, and what is looked for;
* `RtspServer.Names`, `RtspServer.RoutedRight` — the mount that is meant;
* `RtspServer.OneCandidate` — the order of the maps has nothing to decide.

Main results:

* `RtspServer.routedRight_iff` — **the mount that is meant is found exactly when every other mount
  that occurs in the uri is shorter than one that the path names**;
* `RtspServer.resolve_eq_iff` — **the order of the maps decides nothing exactly when there is one
  candidate**.
-/

import MibeeEye.RtspConnection
import Mathlib.Data.List.Nodup

set_option relaxedAutoImplicit false
set_option autoImplicit false

namespace RtspServer

open Text Wire

/-! ### Hash maps -/

/-- A hash map: its entries, in some order. -/
structure Registry (α : Type) where
  entries : List (String × α)
  keysNodup : (entries.map Prod.fst).Nodup

/-- Two entries of a map with the same key are the same. -/
theorem Registry.eq_of_key {α : Type} (r : Registry α) {e e' : String × α} (he : e ∈ r.entries)
    (he' : e' ∈ r.entries) (h : e.1 = e'.1) : e = e' :=
  List.inj_on_of_nodup_map r.keysNodup he he' h

/-! ### Scans -/

/-- When all elements that are looked for are the same, the order does not matter. -/
theorem find?_perm {α : Type} {p : α → Bool} {l l' : List α} (h : l.Perm l')
    (hone : ∀ a ∈ l, ∀ b ∈ l, p a = true → p b = true → a = b) : l.find? p = l'.find? p := by
  cases hl : l.find? p with
  | none =>
      symm
      rw [List.find?_eq_none] at hl ⊢
      intro a ha
      exact hl a (h.mem_iff.2 ha)
  | some a =>
      have hpa := List.find?_some hl
      have ha := List.mem_of_find?_eq_some hl
      obtain ⟨b, hb⟩ : ∃ b, l'.find? p = some b := by
        rw [← Option.isSome_iff_exists, List.find?_isSome]
        exact ⟨a, h.mem_iff.1 ha, hpa⟩
      have hpb := List.find?_some hb
      have hbl := h.mem_iff.2 (List.mem_of_find?_eq_some hb)
      rw [hb, hone a ha b hbl hpa hpb]

theorem lookup_eq_find? {α : Type} (l : List (String × α)) (key : String) :
    l.lookup key = (l.find? fun e => key == e.1).map Prod.snd := by
  induction l with
  | nil => rfl
  | cons e l ih =>
      rw [List.lookup_cons, List.find?_cons]
      cases key == e.1 with
      | true => rfl
      | false => exact ih

/-- `HashMap::get` does not depend on the order. -/
theorem Registry.lookup_perm {α : Type} (r : Registry α) {l : List (String × α)}
    (h : l.Perm r.entries) (key : String) : l.lookup key = r.entries.lookup key := by
  rw [lookup_eq_find?, lookup_eq_find?]
  congr 1
  refine find?_perm h ?_
  intro e he e' he' hkey hkey'
  refine r.eq_of_key (h.mem_iff.1 he) (h.mem_iff.1 he') ?_
  rw [← beq_iff_eq.1 hkey, ← beq_iff_eq.1 hkey']

/-- Any entry may be visited last. -/
theorem exists_perm_concat {α : Type} {l : List α} {a : α} (h : a ∈ l) :
    ∃ l₀, (l₀ ++ [a]).Perm l := by
  obtain ⟨s, t, rfl⟩ := List.append_of_mem h
  refine ⟨s ++ t, ?_⟩
  exact (List.perm_append_singleton a (s ++ t)).trans List.perm_middle.symm

section MaxByKey

variable {α : Type} (key : α → ℕ)

/-- The last element is compared with what was found before it. -/
theorem maxByKey_concat (l : List α) (a : α) :
    maxByKey key (l ++ [a]) = match maxByKey key l with
      | none => some a
      | some b => if key b ≤ key a then some a else some b := by
  rw [maxByKey, List.foldl_append]
  rfl

/-- **What `max_by_key` finds**: an element that no other exceeds. -/
theorem maxByKey_spec (l : List α) :
    (maxByKey key l = none ∧ l = []) ∨
      ∃ a, maxByKey key l = some a ∧ a ∈ l ∧ ∀ b ∈ l, key b ≤ key a := by
  induction l using List.reverseRecOn with
  | nil => exact Or.inl ⟨rfl, rfl⟩
  | append_singleton l a ih =>
      refine Or.inr ?_
      rw [maxByKey_concat]
      rcases ih with ⟨hnone, rfl⟩ | ⟨b, hb, hmem, hmax⟩
      · rw [hnone]
        exact ⟨a, rfl, by simp, by simp⟩
      · rw [hb]
        dsimp only
        by_cases hle : key b ≤ key a
        · rw [if_pos hle]
          refine ⟨a, rfl, by simp, ?_⟩
          intro c hc
          rcases List.mem_append.1 hc with hc | hc
          · exact (hmax c hc).trans hle
          · rw [List.mem_singleton.1 hc]
        · rw [if_neg hle]
          refine ⟨b, rfl, List.mem_append_left _ hmem, ?_⟩
          intro c hc
          rcases List.mem_append.1 hc with hc | hc
          · exact hmax c hc
          · rw [List.mem_singleton.1 hc]
            omega

/-- The last of the largest elements is found. -/
theorem maxByKey_last {l : List α} {a : α} (h : ∀ b ∈ l, key b ≤ key a) :
    maxByKey key (l ++ [a]) = some a := by
  rw [maxByKey_concat]
  rcases maxByKey_spec key l with ⟨hnone, -⟩ | ⟨b, hb, hmem, -⟩
  · rw [hnone]
  · rw [hb]
    exact if_pos (h b hmem)

end MaxByKey

/-! ### What the code finds -/

/-- The length by which `find_live_stream` compares mounts. -/
def mountLen (e : String × LiveStreamEntry) : ℕ := (asBytes (urlPathOf e.1)).length

/-- The three tests are one: the path of the mount occurs in the uri. -/
theorem matchesLive_iff {uri mount : String} :
    matchesLive uri mount = true ↔ (urlPathOf mount).toList <:+: uri.toList := by
  rw [matchesLive, Bool.or_eq_true, Bool.or_eq_true, beq_iff_eq, List.isSuffixOf_iff_suffix,
    decide_eq_true_iff]
  constructor
  · rintro ((rfl | hsuffix) | hinfix)
    · exact List.infix_rfl
    · exact hsuffix.isInfix
    · exact hinfix
  · exact Or.inr

/-- A mount that matches, and no other that matches is longer. -/
def Longest (uri : String) (live : LiveMap) (e : String × LiveStreamEntry) : Prop :=
  matchesLive uri e.1 = true ∧
    ∀ e' ∈ live, matchesLive uri e'.1 = true → mountLen e' ≤ mountLen e

/-- **What `find_live_stream` finds**: one of the longest mounts that match. -/
theorem findLiveStream_spec (uri : String) (live : LiveMap) :
    (findLiveStream uri live = none ∧ ∀ e ∈ live, matchesLive uri e.1 = false) ∨
      ∃ e ∈ live, findLiveStream uri live = some e ∧ Longest uri live e := by
  rcases maxByKey_spec mountLen (live.filter fun e => matchesLive uri e.1) with
    ⟨hnone, hnil⟩ | ⟨e, hsome, hmem, hmax⟩
  · refine Or.inl ⟨hnone, ?_⟩
    intro e he
    simpa using List.filter_eq_nil_iff.1 hnil e he
  · obtain ⟨he, hmatch⟩ := List.mem_filter.1 hmem
    refine Or.inr ⟨e, he, hsome, hmatch, ?_⟩
    intro e' he' hmatch'
    exact hmax e' (List.mem_filter.2 ⟨he', hmatch'⟩)

/-- Each of the longest mounts is found when it is visited last. -/
theorem findLiveStream_last {uri : String} {live : LiveMap} {e : String × LiveStreamEntry}
    (h : Longest uri (live ++ [e]) e) : findLiveStream uri (live ++ [e]) = some e := by
  have hfilter : (live ++ [e]).filter (fun e => matchesLive uri e.1) =
      live.filter (fun e => matchesLive uri e.1) ++ [e] := by
    rw [List.filter_append, List.filter_singleton, h.1, cond_true]
  rw [findLiveStream, hfilter]
  refine maxByKey_last mountLen ?_
  intro e' he'
  obtain ⟨hmem, hmatch⟩ := List.mem_filter.1 he'
  exact h.2 e' (List.mem_append_left _ hmem) hmatch

theorem Longest.perm {uri : String} {live live' : LiveMap} {e : String × LiveStreamEntry}
    (h : Longest uri live e) (hperm : live'.Perm live) : Longest uri live' e :=
  ⟨h.1, fun e' he' => h.2 e' (hperm.mem_iff.1 he')⟩

/-! ### What is meant -/

/-- A uri of a request: a path, with or without `rtsp://host:port`. -/
structure RequestUri where
  authority : Option (List Char)
  path : List Char
  authority_noSlash : ∀ a ∈ authority, '/' ∉ a
  path_slash : path.head? = some '/'

/-- The text of a uri. -/
def RequestUri.text (u : RequestUri) : String :=
  String.ofList ((u.authority.elim [] fun a => "rtsp://".toList ++ a) ++ u.path)

/-- The path is that of the mount, or goes on after it with a slash. -/
def Names (path : List Char) (mount : String) : Prop :=
  path = (urlPathOf mount).toList ∨ (urlPathOf mount).toList ++ ['/'] <+: path

/-- The longest mount that the path names is found, and nothing if it names none. -/
def RoutedRight (path : List Char) (live : LiveMap) :
    Option (String × LiveStreamEntry) → Prop
  | some e => e ∈ live ∧ Names path e.1 ∧ ∀ e' ∈ live, Names path e'.1 → mountLen e' ≤ mountLen e
  | none => ∀ e ∈ live, ¬ Names path e.1

/-- A mount that the path names occurs in the uri. -/
theorem matchesLive_of_names {u : RequestUri} {mount : String} (h : Names u.path mount) :
    matchesLive u.text mount = true := by
  have hpath : u.path <:+: u.text.toList := by
    rw [RequestUri.text, String.toList_ofList]
    exact (List.suffix_append _ _).isInfix
  rw [matchesLive_iff]
  rcases h with heq | hprefix
  · rwa [← heq]
  · exact ((List.prefix_append _ _).trans hprefix).isInfix.trans hpath

/-- **The mount that is meant is found**, in every order of the map, **exactly when every other
mount that occurs in the uri is shorter than one that the path names**. -/
theorem routedRight_iff (live : Registry LiveStreamEntry) (u : RequestUri) :
    (∀ order, order.Perm live.entries →
      RoutedRight u.path order (findLiveStream u.text order)) ↔
    ∀ e ∈ live.entries, matchesLive u.text e.1 = true → ¬ Names u.path e.1 →
      ∃ e' ∈ live.entries, Names u.path e'.1 ∧ mountLen e < mountLen e' := by
  constructor
  · intro hright e he hmatch hnames
    by_contra hshort
    -- all mounts that are meant are at most as long as `e`, which is visited last
    obtain ⟨l, hperm⟩ := exists_perm_concat he
    have hfound := hright _ hperm
    rcases findLiveStream_spec u.text (l ++ [e]) with ⟨-, hnone⟩ | ⟨e₁, he₁, hsome, hlongest⟩
    · rw [hnone e (by simp)] at hmatch
      cases hmatch
    · rw [hsome] at hfound
      have hle : mountLen e₁ ≤ mountLen e := by
        by_contra hlt
        exact hshort ⟨e₁, hperm.mem_iff.1 he₁, hfound.2.1, by omega⟩
      have hlast : Longest u.text (l ++ [e]) e :=
        ⟨hmatch, fun e' he' hmatch' => (hlongest.2 e' he' hmatch').trans hle⟩
      rw [findLiveStream_last hlast] at hsome
      cases hsome
      exact hnames hfound.2.1
  · intro hshorter order hperm
    rcases findLiveStream_spec u.text order with ⟨hnone, hno⟩ | ⟨e, he, hsome, hlongest⟩
    · rw [hnone]
      intro e he hnames
      have hmatch := matchesLive_of_names hnames
      rw [hno e he] at hmatch
      cases hmatch
    · rw [hsome]
      have hnames : Names u.path e.1 := by
        by_contra hnames
        obtain ⟨e', he', hnames', hlt⟩ := hshorter e (hperm.mem_iff.1 he) hlongest.1 hnames
        have hle := hlongest.2 e' (hperm.mem_iff.2 he') (matchesLive_of_names hnames')
        omega
      exact ⟨he, hnames, fun e' he' hnames' => hlongest.2 e' he' (matchesLive_of_names hnames')⟩

/-- A map with the one mount `live/cam-1`. -/
def oneCamera : Registry LiveStreamEntry where
  entries := [("live/cam-1", { sdpBody := "", ssrc := 1 })]
  keysNodup := List.nodup_singleton _

/-- The uri `/live/cam-10`. -/
def otherCamera : RequestUri where
  authority := none
  path := "/live/cam-10".toList
  authority_noSlash := fun _ h => by cases h
  path_slash := rfl

/-- The uri of a camera that is not there is taken for that of another. -/
theorem not_routedRight_otherCamera :
    findLiveStream otherCamera.text oneCamera.entries =
        some ("live/cam-1", { sdpBody := "", ssrc := 1 }) ∧
      ¬ RoutedRight otherCamera.path oneCamera.entries
        (findLiveStream otherCamera.text oneCamera.entries) := by
  have hfound : findLiveStream otherCamera.text oneCamera.entries =
      some ("live/cam-1", { sdpBody := "", ssrc := 1 }) := by
    decide
  refine ⟨hfound, ?_⟩
  rw [hfound]
  rintro ⟨-, hnames, -⟩
  have hnot : ¬ (otherCamera.path = (urlPathOf "live/cam-1").toList ∨
      (urlPathOf "live/cam-1").toList ++ ['/'] <+: otherCamera.path) := by
    decide
  exact hnot hnames

/-! ### The order of the maps -/

/-- All configured streams that match are the same; and if there is none, so are all live streams
with a mount of the greatest length that matches. -/
def OneCandidate (uri : String) (streams : StreamMap) (live : LiveMap) : Prop :=
  (∀ s ∈ streams, ∀ s' ∈ streams, s.2.matchesUri uri = true → s'.2.matchesUri uri = true →
    s.2 = s'.2) ∧
  ((∀ s ∈ streams, s.2.matchesUri uri = false) →
    ∀ e ∈ live, ∀ e' ∈ live, Longest uri live e → Longest uri live e' → e = e')

/-- One configured stream that matches is found in every order. -/
theorem findStreamByUri_perm {uri : String} {streams order : StreamMap}
    (hone : ∀ s ∈ streams, ∀ s' ∈ streams, s.2.matchesUri uri = true →
      s'.2.matchesUri uri = true → s.2 = s'.2)
    (h : order.Perm streams) : findStreamByUri uri order = findStreamByUri uri streams := by
  refine find?_perm (h.map Prod.snd) ?_
  intro a ha b hb hpa hpb
  obtain ⟨s, hs, rfl⟩ := List.mem_map.1 ha
  obtain ⟨s', hs', rfl⟩ := List.mem_map.1 hb
  exact hone s (h.mem_iff.1 hs) s' (h.mem_iff.1 hs') hpa hpb

/-- One longest mount is found in every order. -/
theorem findLiveStream_perm {uri : String} {live order : LiveMap}
    (hone : ∀ e ∈ live, ∀ e' ∈ live, Longest uri live e → Longest uri live e' → e = e')
    (h : order.Perm live) : findLiveStream uri order = findLiveStream uri live := by
  rcases findLiveStream_spec uri order with ⟨hnone, hno⟩ | ⟨e, he, hsome, hlongest⟩
  · rcases findLiveStream_spec uri live with ⟨hnone', -⟩ | ⟨e', he', -, hlongest'⟩
    · rw [hnone, hnone']
    · have hmatch := hlongest'.1
      rw [hno e' (h.mem_iff.2 he')] at hmatch
      cases hmatch
  · rcases findLiveStream_spec uri live with ⟨-, hno'⟩ | ⟨e', he', hsome', hlongest'⟩
    · have hmatch := hlongest.1
      rw [hno' e (h.mem_iff.1 he)] at hmatch
      cases hmatch
    · rw [hsome, hsome', hone e (h.mem_iff.1 he) e' he' (hlongest.perm h.symm) hlongest']

theorem findStreamByUri_eq_none {uri : String} {streams : StreamMap} :
    findStreamByUri uri streams = none ↔ ∀ s ∈ streams, s.2.matchesUri uri = false := by
  rw [findStreamByUri, List.find?_eq_none]
  constructor
  · intro h s hs
    simpa using h s.2 (List.mem_map_of_mem hs)
  · intro h s hs
    obtain ⟨e, he, rfl⟩ := List.mem_map.1 hs
    simp [h e he]

/-- **The order of the maps decides nothing, for `DESCRIBE` and for `SETUP` in every state, exactly
when there is one candidate.** -/
theorem resolve_eq_iff (config : RtspServerConfig) (streams : Registry StreamConfig)
    (live again : Registry LiveStreamEntry) (uri : String) :
    (∀ s₁ s₂ l₁ l₂ a₁ a₂, s₁.Perm streams.entries → s₂.Perm streams.entries →
      l₁.Perm live.entries → l₂.Perm live.entries → a₁.Perm again.entries →
      a₂.Perm again.entries →
        resolveDescribe ⟨config, s₁⟩ uri l₁ = resolveDescribe ⟨config, s₂⟩ uri l₂ ∧
        ∀ session, resolveSetup ⟨config, s₁⟩ session uri l₁ a₁ =
          resolveSetup ⟨config, s₂⟩ session uri l₂ a₂) ↔
    OneCandidate uri streams.entries live.entries := by
  constructor
  · intro hsame
    have hdescribe : ∀ {s₁ s₂ l₁ l₂}, s₁.Perm streams.entries → s₂.Perm streams.entries →
        l₁.Perm live.entries → l₂.Perm live.entries →
        resolveDescribe ⟨config, s₁⟩ uri l₁ = resolveDescribe ⟨config, s₂⟩ uri l₂ :=
      fun h₁ h₂ h₃ h₄ => (hsame _ _ _ _ _ _ h₁ h₂ h₃ h₄ (List.Perm.refl _) (List.Perm.refl _)).1
    refine ⟨?_, ?_⟩
    · -- each of the two streams may be visited first
      intro s hs s' hs' hmatch hmatch'
      obtain ⟨t, ht⟩ := exists_perm_concat hs
      obtain ⟨t', ht'⟩ := exists_perm_concat hs'
      have hfirst : ∀ (s : String × StreamConfig) (t : StreamMap), s.2.matchesUri uri = true →
          resolveDescribe ⟨config, s :: t⟩ uri live.entries = some s.2 := by
        intro s t hmatch
        simp [resolveDescribe, findStreamByUri, hmatch]
      have heq := hdescribe ((List.perm_append_singleton s t).symm.trans ht)
        ((List.perm_append_singleton s' t').symm.trans ht') (List.Perm.refl _) (List.Perm.refl _)
      rw [hfirst s t hmatch, hfirst s' t' hmatch'] at heq
      exact Option.some.inj heq
    · -- each of the two mounts may be visited last
      intro hnone e he e' he' hlongest hlongest'
      obtain ⟨l, hl⟩ := exists_perm_concat he
      obtain ⟨l', hl'⟩ := exists_perm_concat he'
      have heq := hdescribe (List.Perm.refl _) (List.Perm.refl _) hl hl'
      rw [resolveDescribe, resolveDescribe, findStreamByUri_eq_none.2 hnone,
        findLiveStream_last (hlongest.perm hl), findLiveStream_last (hlongest'.perm hl')] at heq
      refine live.eq_of_key he he' ?_
      simpa using congrArg (Option.map StreamConfig.path) heq
  · rintro ⟨hstatic, hlive⟩ s₁ s₂ l₁ l₂ a₁ a₂ hs₁ hs₂ hl₁ hl₂ ha₁ ha₂
    have hs : findStreamByUri uri s₁ = findStreamByUri uri s₂ := by
      rw [findStreamByUri_perm hstatic hs₁, findStreamByUri_perm hstatic hs₂]
    have ha : ∀ path, a₁.lookup path = a₂.lookup path := by
      intro path
      rw [again.lookup_perm ha₁, again.lookup_perm ha₂]
    cases hfound : findStreamByUri uri s₂ with
    | some stream => simp [resolveDescribe, resolveSetup, hs, hfound]
    | none =>
        have hnone := findStreamByUri_eq_none.1 ((findStreamByUri_perm hstatic hs₂).symm.trans hfound)
        have hl : findLiveStream uri l₁ = findLiveStream uri l₂ := by
          rw [findLiveStream_perm (hlive hnone) hl₁, findLiveStream_perm (hlive hnone) hl₂]
        simp only [resolveDescribe, resolveSetup, hs, hl, ha, implies_true, and_self]

/-- A map with the two configured streams `cam` and `cam2`. -/
def twoCameras : Registry StreamConfig where
  entries := [("cam", { path := "cam", sdpBody := "", ssrc := 1 }),
    ("cam2", { path := "cam2", sdpBody := "", ssrc := 2 })]
  keysNodup := by simp

/-- The uri of the second stream names the one that is visited first. -/
theorem not_resolve_eq_twoCameras :
    twoCameras.entries.reverse.Perm twoCameras.entries ∧
      resolveDescribe ⟨{}, twoCameras.entries⟩ "rtsp://host:8554/cam2" [] ≠
        resolveDescribe ⟨{}, twoCameras.entries.reverse⟩ "rtsp://host:8554/cam2" [] :=
  ⟨List.reverse_perm _, by decide⟩

end RtspServer
