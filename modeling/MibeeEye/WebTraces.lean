/-
**Which models a conversation called.**

A conversation is traced (`crates/web/src/convtrace.rs`): every call of a model opens a span, which is recorded
once it ends, as a success or as an error; one that is dropped counts as a success.  Handles and spans are
passed to tasks that run side by side, so that spans of all conversations begin and end in any order.  At most
so many spans are stored of a conversation, and the hub keeps the last conversations that were started.

Main definitions:

* `ConvTrace.ConvEntry`, `ConvTrace.ConvSpanGuard` — a conversation, and a span that is not recorded yet;
* `ConvTrace.Hub`, `ConvTrace.step` — what is alive, and what may happen;
* `ConvTrace.summarize`, `ConvTrace.list` — what is shown;
* `ConvTrace.EntryBooks`, `ConvTrace.Books` — what a conversation tells of its spans.

Main results:

* `ConvTrace.books_step` — the books are kept by every event;
* `ConvTrace.books` — **the books are right after any events**: every span is recorded once, and under its own
  conversation;
* `ConvTrace.list_newest` — **the last conversations are listed, the newest first**.
-/

import MibeeEye.Transducer
import Mathlib.Data.List.Destutter
import Mathlib.Data.String.Basic

set_option relaxedAutoImplicit false
set_option autoImplicit false

namespace ConvTrace

open Transducer

/-! ### Conversations and spans -/

/-- `MAX_CONVERSATIONS`. -/
def maxConversations : ℕ := 200

/-- `MAX_SPANS_PER_CONV`. -/
def maxSpansPerConv : ℕ := 64

/-- How a call of a model ended. -/
inductive Status where
  | ok
  | error
  deriving DecidableEq, Repr

/-- `ConvSpan`. -/
structure ConvSpan where
  spanId : ℕ
  parentId : Option ℕ
  model : String
  variant : String
  label : String
  startMs : ℕ
  durationMs : ℕ
  status : Status
  tokensPrompt : Option ℕ
  tokensCompletion : Option ℕ
  attributes : List (String × String)
  deriving DecidableEq, Repr

/-- `ConvEntry`; instants and durations are in nanoseconds. -/
structure ConvEntry where
  id : String
  origin : String
  startedAtMs : ℕ
  started : ℕ
  spans : List ConvSpan := []
  nextSpanId : ℕ := 1
  inflight : ℕ := 0
  turns : ℕ := 0
  anyOk : Bool := false
  anyErr : Bool := false
  closed : Bool := false
  closedDuration : Option ℕ := none
  deriving DecidableEq, Repr

/-- `ConvSpanGuard`, with the number of its conversation. -/
structure ConvSpanGuard where
  entry : ℕ
  spanId : ℕ
  parent : Option ℕ := none
  model : String
  variant : String
  label : String
  started : ℕ
  startOffset : ℕ
  tokensPrompt : Option ℕ := none
  tokensCompletion : Option ℕ := none
  attributes : List (String × String)
  finished : Bool := false
  deriving DecidableEq, Repr

/-- `as_millis`. -/
def asMillis (d : ℕ) : ℕ := d / 10 ^ 6

/-- `as_secs`. -/
def asSecs (d : ℕ) : ℕ := d / 10 ^ 9

/-- Digits of a number to the base of 16, at least so many. -/
def hexText (width n : ℕ) : String :=
  let digits := Nat.toDigits 16 n
  String.ofList (List.replicate (width - digits.length) '0' ++ digits)

/-- The identifier of a conversation. -/
def convId (unixNowMs seq : ℕ) : String := "c" ++ hexText 1 unixNowMs ++ hexText 4 (seq % 2 ^ 16)

/-- `ConvHandle::close`. -/
def ConvEntry.close (e : ConvEntry) (now : ℕ) : ConvEntry :=
  if e.closed then e else { e with closed := true, closedDuration := some (now - e.started) }

/-- What `ConvSpanGuard::record` does to the conversation. -/
def ConvEntry.push (e : ConvEntry) (span : ConvSpan) : ConvEntry :=
  { e with
    inflight := e.inflight - 1
    anyOk := if span.status = .ok then true else e.anyOk
    anyErr := if span.status = .ok then e.anyErr else true
    spans := if e.spans.length < maxSpansPerConv then e.spans ++ [span] else e.spans }

/-- `ConvSpanGuard::tokens`. -/
def ConvSpanGuard.tokens (g : ConvSpanGuard) (prompt completion : Option ℕ) : ConvSpanGuard :=
  { g with tokensPrompt := prompt, tokensCompletion := completion }

/-- The span that a guard records. -/
def ConvSpanGuard.span (g : ConvSpanGuard) (status : Status) (now : ℕ) : ConvSpan :=
  { spanId := g.spanId, parentId := g.parent, model := g.model, variant := g.variant, label := g.label,
    startMs := asMillis g.startOffset, durationMs := asMillis (now - g.started), status := status,
    tokensPrompt := g.tokensPrompt, tokensCompletion := g.tokensCompletion, attributes := g.attributes }

/-! ### The hub -/

/-- All conversations, those in the ring by their numbers, and the spans that are not recorded yet. -/
structure Hub where
  entries : List ConvEntry := []
  convs : List ℕ := []
  counter : ℕ := 1
  guards : List ConvSpanGuard := []
  deriving DecidableEq, Repr

/-- What may happen. -/
inductive Event where
  | start (origin : String) (unixNowMs now : ℕ)
  | addTurn (conv : ℕ)
  | close (conv now : ℕ)
  | span (conv : ℕ) (model variant label : String) (attributes : List (String × String)) (now : ℕ)
  | tokens (guard : ℕ) (prompt completion : Option ℕ)
  | finish (guard : ℕ) (status : Status) (now dropped : ℕ)
  | drop (guard now : ℕ)
  deriving DecidableEq, Repr

/-- A conversation that begins. -/
def Hub.newEntry (h : Hub) (origin : String) (unixNowMs now : ℕ) : ConvEntry :=
  { id := convId unixNowMs h.counter, origin := origin, startedAtMs := unixNowMs, started := now }

/-- `ConvTraceHub::start`. -/
def Hub.start (h : Hub) (origin : String) (unixNowMs now : ℕ) : Hub :=
  let convs := if maxConversations ≤ h.convs.length then h.convs.tail else h.convs
  { h with
    entries := h.entries ++ [h.newEntry origin unixNowMs now]
    convs := convs ++ [h.entries.length]
    counter := h.counter + 1 }

/-- A span that begins. -/
def ConvEntry.guard (e : ConvEntry) (conv : ℕ) (model variant label : String)
    (attributes : List (String × String)) (now : ℕ) : ConvSpanGuard :=
  { entry := conv, spanId := e.nextSpanId, model := model, variant := variant, label := label, started := now,
    startOffset := now - e.started, attributes := attributes }

/-- `ConvHandle::span`. -/
def Hub.span (h : Hub) (conv : ℕ) (model variant label : String) (attributes : List (String × String))
    (now : ℕ) : Hub :=
  match h.entries[conv]? with
  | none => h
  | some e =>
      { h with
        entries := h.entries.modify conv fun e =>
          { e with nextSpanId := e.nextSpanId + 1, inflight := e.inflight + 1 }
        guards := h.guards ++ [e.guard conv model variant label attributes now] }

/-- `ConvSpanGuard::record`: nothing is recorded twice. -/
def Hub.record (h : Hub) (g : ConvSpanGuard) (status : Status) (now : ℕ) :
    Hub × ConvSpanGuard × List (ℕ × ConvSpan) :=
  if g.finished then (h, g, [])
  else
    ({ h with entries := h.entries.modify g.entry (·.push (g.span status now)) }, { g with finished := true },
      [(g.entry, g.span status now)])

/-- What an event does, and the spans that it records, each with the number of its conversation.  A guard that
is finished is dropped after that. -/
def step (h : Hub) : Event → Hub × List (ℕ × ConvSpan)
  | .start origin unixNowMs now => (h.start origin unixNowMs now, [])
  | .addTurn conv => ({ h with entries := h.entries.modify conv fun e => { e with turns := e.turns + 1 } }, [])
  | .close conv now => ({ h with entries := h.entries.modify conv (·.close now) }, [])
  | .span conv model variant label attributes now => (h.span conv model variant label attributes now, [])
  | .tokens guard prompt completion =>
      ({ h with guards := h.guards.modify guard (·.tokens prompt completion) }, [])
  | .finish guard status now dropped =>
      match h.guards[guard]? with
      | none => (h, [])
      | some g =>
          let r := { h with guards := h.guards.eraseIdx guard }.record g status now
          let r' := r.1.record r.2.1 .ok dropped
          (r'.1, r.2.2 ++ r'.2.2)
  | .drop guard now =>
      match h.guards[guard]? with
      | none => (h, [])
      | some g =>
          let r := { h with guards := h.guards.eraseIdx guard }.record g .ok now
          (r.1, r.2.2)

/-! ### What is shown -/

/-- `ConvSummary`. -/
structure ConvSummary where
  id : String
  origin : String
  startedAtMs : ℕ
  durationMs : ℕ
  turns : ℕ
  models : List String
  status : String
  isOpen : Bool
  deriving DecidableEq, Repr

/-- `duration_of`. -/
def durationOf (e : ConvEntry) (now : ℕ) : ℕ :=
  match e.closedDuration with
  | some d => d
  | none =>
      if 300 < asSecs (now - e.started) then
        (e.spans.map fun s => (s.startMs + s.durationMs) * 10 ^ 6).foldl max 0
      else now - e.started

/-- `is_open`. -/
def isOpen (e : ConvEntry) (now : ℕ) : Bool := !e.closed && (0 < e.inflight || asSecs (now - e.started) < 5)

/-- `status_of`. -/
def statusOf (e : ConvEntry) : String :=
  match e.anyOk, e.anyErr with
  | true, true => "partial"
  | true, false => "ok"
  | false, true => "error"
  | false, false => "ok"

/-- `distinct_models`. -/
def distinctModels (e : ConvEntry) : List String :=
  ((e.spans.map ConvSpan.model).mergeSort fun a b => decide (a ≤ b)).destutter (· ≠ ·)

/-- `summarize`. -/
def summarize (e : ConvEntry) (now : ℕ) : ConvSummary :=
  { id := e.id, origin := e.origin, startedAtMs := e.startedAtMs, durationMs := asMillis (durationOf e now),
    turns := e.turns, models := distinctModels e, status := statusOf e, isOpen := isOpen e now }

/-- `ConvTraceHub::list`. -/
def list (h : Hub) (limit now : ℕ) : List ConvSummary :=
  (h.convs.reverse.take limit).filterMap fun c => h.entries[c]?.map (summarize · now)

/-! ### The books -/

/-- What concerns a conversation. -/
def ofConv {β : Type} (c : ℕ) (l : List (ℕ × β)) : List β := (l.filter fun x => x.1 = c).map Prod.snd

/-- A guard by its conversation and its span. -/
def ConvSpanGuard.key (g : ConvSpanGuard) : ℕ × ℕ := (g.entry, g.spanId)

/-- What a conversation tells of the spans that were recorded, and of those that were not yet. -/
structure EntryBooks (done : List ConvSpan) (waiting : List ℕ) (e : ConvEntry) : Prop where
  inflight : e.inflight = waiting.length
  /-- The first spans to be recorded are stored. -/
  spans : e.spans = done.take maxSpansPerConv
  anyOk : e.anyOk = done.any fun s => s.status = .ok
  anyErr : e.anyErr = done.any fun s => s.status = .error
  /-- Every number that was given out is that of one span. -/
  numbers : (done.map ConvSpan.spanId ++ waiting).Perm (List.range' 1 (done.length + waiting.length))
  next : e.nextSpanId = 1 + (done.length + waiting.length)

/-- What the hub tells of all that was recorded. -/
structure Books (recorded : List (ℕ × ConvSpan)) (h : Hub) : Prop where
  /-- The ring holds the last conversations. -/
  ring : h.convs = (List.range h.entries.length).drop (h.entries.length - maxConversations)
  /-- No guard that is alive was recorded. -/
  fresh : ∀ g ∈ h.guards, g.entry < h.entries.length ∧ g.finished = false
  known : ∀ x ∈ recorded, x.1 < h.entries.length
  entry : ∀ c e, h.entries[c]? = some e →
    EntryBooks (ofConv c recorded) (ofConv c (h.guards.map ConvSpanGuard.key)) e

variable {β : Type} {c : ℕ} {recorded : List (ℕ × ConvSpan)} {h : Hub} {done : List ConvSpan}
  {waiting waiting' : List ℕ} {e : ConvEntry} {g : ConvSpanGuard}

theorem ofConv_append (c : ℕ) (l m : List (ℕ × β)) : ofConv c (l ++ m) = ofConv c l ++ ofConv c m := by
  rw [ofConv, ofConv, ofConv, List.filter_append, List.map_append]

theorem ofConv_singleton (c : ℕ) (x : ℕ × β) : ofConv c [x] = if x.1 = c then [x.2] else [] := by
  by_cases hc : x.1 = c <;> simp [ofConv, hc]

theorem ofConv_perm {l m : List (ℕ × β)} (hperm : l.Perm m) (c : ℕ) : (ofConv c l).Perm (ofConv c m) :=
  (hperm.filter _).map _

theorem ofConv_eq_nil {l : List (ℕ × β)} (hl : ∀ x ∈ l, x.1 ≠ c) : ofConv c l = [] := by
  rw [ofConv, List.filter_eq_nil_iff.2 fun x hx => by simpa using hl x hx, List.map_nil]

/-- The order in which spans wait does not matter. -/
theorem EntryBooks.perm (hbooks : EntryBooks done waiting e) (hperm : waiting.Perm waiting') :
    EntryBooks done waiting' e where
  inflight := hbooks.inflight.trans hperm.length_eq
  spans := hbooks.spans
  anyOk := hbooks.anyOk
  anyErr := hbooks.anyErr
  numbers := by
    rw [← hperm.length_eq]
    exact (hperm.symm.append_left _).trans hbooks.numbers
  next := by rw [← hperm.length_eq, hbooks.next]

theorem entryBooks_new (e : ConvEntry) (hspans : e.spans = []) (hinflight : e.inflight = 0)
    (hok : e.anyOk = false) (herr : e.anyErr = false) (hnext : e.nextSpanId = 1) : EntryBooks [] [] e :=
  ⟨hinflight, hspans, hok, herr, .refl _, hnext⟩

/-- A span is opened. -/
theorem EntryBooks.opened (hbooks : EntryBooks done waiting e) :
    EntryBooks done (waiting ++ [e.nextSpanId])
      { e with nextSpanId := e.nextSpanId + 1, inflight := e.inflight + 1 } where
  inflight := by rw [List.length_append, hbooks.inflight, List.length_singleton]
  spans := hbooks.spans
  anyOk := hbooks.anyOk
  anyErr := hbooks.anyErr
  numbers := by
    rw [← List.append_assoc, List.length_append, List.length_singleton, ← Nat.add_assoc,
      List.range'_1_concat, ← hbooks.next]
    exact hbooks.numbers.append_right _
  next := by
    show e.nextSpanId + 1 = _
    rw [hbooks.next, List.length_append, List.length_singleton, Nat.add_assoc, Nat.add_assoc]

/-- A span is recorded. -/
theorem EntryBooks.push {span : ConvSpan} (hbooks : EntryBooks done (span.spanId :: waiting) e) :
    EntryBooks (done ++ [span]) waiting (e.push span) where
  inflight := by
    show e.inflight - 1 = _
    rw [hbooks.inflight, List.length_cons, Nat.add_sub_cancel]
  spans := by
    show (if e.spans.length < maxSpansPerConv then e.spans ++ [span] else e.spans) = _
    rw [hbooks.spans, List.length_take]
    split
    · next hroom =>
        rw [List.take_of_length_le (by omega), List.take_of_length_le]
        rw [List.length_append, List.length_singleton]
        omega
    · next hfull => rw [List.take_append_of_le_length (by omega)]
  anyOk := by
    show (if span.status = .ok then true else e.anyOk) = _
    rw [hbooks.anyOk, List.any_append]
    cases hstatus : span.status <;> simp [hstatus]
  anyErr := by
    show (if span.status = .ok then e.anyErr else true) = _
    rw [hbooks.anyErr, List.any_append]
    cases hstatus : span.status <;> simp [hstatus]
  numbers := by
    have hnumbers := hbooks.numbers
    rw [List.length_cons] at hnumbers
    rw [List.map_append, List.append_assoc, List.length_append, List.length_singleton, Nat.add_assoc,
      Nat.add_comm 1]
    exact hnumbers
  next := by
    have hnext := hbooks.next
    rw [List.length_cons] at hnext
    show e.nextSpanId = _
    rw [hnext, List.length_append, List.length_singleton]
    omega

/-- What leaves the spans alone leaves the books right. -/
theorem EntryBooks.of_eq {e' : ConvEntry} (hbooks : EntryBooks done waiting e) (hspans : e'.spans = e.spans)
    (hnext : e'.nextSpanId = e.nextSpanId) (hinflight : e'.inflight = e.inflight) (hok : e'.anyOk = e.anyOk)
    (herr : e'.anyErr = e.anyErr) : EntryBooks done waiting e' :=
  ⟨hinflight.trans hbooks.inflight, hspans.trans hbooks.spans, hok.trans hbooks.anyOk,
    herr.trans hbooks.anyErr, hbooks.numbers, hnext.trans hbooks.next⟩

/-- **The frame rule**: one conversation changes, and spans of it are opened and recorded. -/
theorem Books.modify (c : ℕ) (f : ConvEntry → ConvEntry) (guards : List ConvSpanGuard)
    (more : List (ℕ × ConvSpan)) (hbooks : Books recorded h)
    (hfresh : ∀ g ∈ guards, g.entry < h.entries.length ∧ g.finished = false)
    (hmore : ∀ x ∈ more, x.1 = c ∧ c < h.entries.length)
    (hothers : ∀ d ≠ c, (ofConv d (h.guards.map ConvSpanGuard.key)).Perm
      (ofConv d (guards.map ConvSpanGuard.key)))
    (hentry : ∀ e, h.entries[c]? = some e → EntryBooks (ofConv c recorded ++ ofConv c more)
      (ofConv c (guards.map ConvSpanGuard.key)) (f e)) :
    Books (recorded ++ more) { h with entries := h.entries.modify c f, guards := guards } where
  ring := by
    rw [List.length_modify]
    exact hbooks.ring
  fresh := by
    rw [List.length_modify]
    exact hfresh
  known := by
    intro x hx
    rw [List.length_modify]
    rcases List.mem_append.1 hx with hx | hx
    · exact hbooks.known x hx
    · obtain ⟨rfl, hlt⟩ := hmore x hx
      exact hlt
  entry := by
    intro d e' he'
    rw [List.getElem?_modify] at he'
    obtain ⟨e, he, rfl⟩ := Option.map_eq_some_iff.1 he'
    rw [ofConv_append]
    by_cases hd : c = d
    · subst hd
      rw [if_pos rfl]
      exact hentry e he
    · rw [if_neg hd, ofConv_eq_nil fun x hx => fun heq => hd ((hmore x hx).1.symm.trans heq), List.append_nil]
      exact (hbooks.entry d e he).perm (hothers d (Ne.symm hd))

/-- A conversation changes, but not its spans. -/
theorem Books.modify_frame {f : ConvEntry → ConvEntry} (hbooks : Books recorded h)
    (hf : ∀ e, (f e).spans = e.spans ∧ (f e).nextSpanId = e.nextSpanId ∧ (f e).inflight = e.inflight ∧
      (f e).anyOk = e.anyOk ∧ (f e).anyErr = e.anyErr) :
    Books recorded { h with entries := h.entries.modify c f } := by
  have hmodify := hbooks.modify c f h.guards [] hbooks.fresh
    (fun x hx => absurd hx List.not_mem_nil) (fun d _ => .refl _) fun e he => by
      obtain ⟨hspans, hnext, hinflight, hok, herr⟩ := hf e
      rw [ofConv, ofConv, List.filter_nil, List.map_nil, List.append_nil]
      exact (hbooks.entry c e he).of_eq hspans hnext hinflight hok herr
  rwa [List.append_nil] at hmodify

/-- A guard that is taken out was among those of its conversation. -/
theorem perm_eraseIdx {i : ℕ} (hg : h.guards[i]? = some g) :
    (h.guards.map ConvSpanGuard.key).Perm (g.key :: (h.guards.eraseIdx i).map ConvSpanGuard.key) := by
  obtain ⟨hi, rfl⟩ := List.getElem?_eq_some_iff.1 hg
  have hperm : h.guards.Perm (h.guards[i] :: h.guards.eraseIdx i) := by
    rw [List.eraseIdx_eq_take_drop_succ]
    conv_lhs => rw [← List.take_append_drop i h.guards, List.drop_eq_getElem_cons hi]
    exact List.perm_middle
  exact hperm.map ConvSpanGuard.key

/-- A guard records its span. -/
theorem Books.record {i : ℕ} (hbooks : Books recorded h) (hg : h.guards[i]? = some g) (status : Status)
    (now : ℕ) :
    let r := { h with guards := h.guards.eraseIdx i }.record g status now
    Books (recorded ++ r.2.2) r.1 ∧ r.2.1.finished = true := by
  intro r
  have hfresh := hbooks.fresh g (List.mem_of_getElem? hg)
  have hperm := perm_eraseIdx hg
  have hr : r = ({ h with
        entries := h.entries.modify g.entry (·.push (g.span status now))
        guards := h.guards.eraseIdx i },
      { g with finished := true }, [(g.entry, g.span status now)]) :=
    if_neg (by simp [hfresh.2])
  rw [hr]
  refine ⟨hbooks.modify _ _ _ _ (fun x hx => hbooks.fresh x (List.mem_of_mem_eraseIdx hx)) ?_ ?_ ?_, rfl⟩
  · intro x hx
    obtain rfl := List.mem_singleton.1 hx
    exact ⟨rfl, hfresh.1⟩
  · intro d hd
    refine (ofConv_perm hperm d).trans (List.Perm.of_eq ?_)
    rw [← List.singleton_append, ofConv_append, ofConv_singleton,
      if_neg (show g.key.1 ≠ d from Ne.symm hd), List.nil_append]
  · intro e he
    have hwaiting := ofConv_perm hperm g.entry
    rw [← List.singleton_append, ofConv_append, ofConv_singleton, if_pos (show g.key.1 = g.entry from rfl)]
      at hwaiting
    show EntryBooks (ofConv g.entry recorded ++ ofConv g.entry [(g.entry, g.span status now)]) _ _
    rw [ofConv_singleton, if_pos rfl]
    exact ((hbooks.entry g.entry e he).perm hwaiting).push

/-- A guard that is finished records nothing. -/
theorem record_finished {status : Status} {now : ℕ} (hg : g.finished = true) :
    h.record g status now = (h, g, []) := if_pos hg

theorem entries_start (h : Hub) (origin : String) (unixNowMs now : ℕ) :
    (h.start origin unixNowMs now).entries = h.entries ++ [h.newEntry origin unixNowMs now] := rfl

theorem convs_start (h : Hub) (origin : String) (unixNowMs now : ℕ) :
    (h.start origin unixNowMs now).convs =
      (if maxConversations ≤ h.convs.length then h.convs.tail else h.convs) ++ [h.entries.length] := rfl

theorem guards_start (h : Hub) (origin : String) (unixNowMs now : ℕ) :
    (h.start origin unixNowMs now).guards = h.guards := rfl

/-- The ring makes room for one more. -/
theorem ring_succ (n : ℕ) {convs : List ℕ} (hconvs : convs = (List.range n).drop (n - maxConversations)) :
    (if maxConversations ≤ convs.length then convs.tail else convs) ++ [n] =
      (List.range (n + 1)).drop (n + 1 - maxConversations) := by
  have hpos : 0 < maxConversations := by decide
  have hlength : convs.length = n - (n - maxConversations) := by
    rw [hconvs, List.length_drop, List.length_range]
  rw [List.range_succ, List.drop_append_of_le_length (by rw [List.length_range]; omega), hlength, hconvs]
  refine congrArg (· ++ [n]) ?_
  split
  · rw [List.tail_drop, show n - maxConversations + 1 = n + 1 - maxConversations by omega]
  · rw [show n - maxConversations = 0 by omega, show n + 1 - maxConversations = 0 by omega]

/-- A conversation that is started has no spans. -/
theorem Books.start (hbooks : Books recorded h) (origin : String) (unixNowMs now : ℕ) :
    Books recorded (h.start origin unixNowMs now) := by
  have hlength : (h.start origin unixNowMs now).entries.length = h.entries.length + 1 := by
    rw [entries_start, List.length_append, List.length_singleton]
  refine ⟨?_, ?_, ?_, ?_⟩
  · rw [convs_start, hlength]
    exact ring_succ h.entries.length hbooks.ring
  · intro g hg
    rw [hlength]
    exact (hbooks.fresh g hg).imp_left fun hlt => hlt.trans (Nat.lt_succ_self _)
  · intro x hx
    rw [hlength]
    exact (hbooks.known x hx).trans (Nat.lt_succ_self _)
  · intro c e he
    rw [entries_start] at he
    rw [guards_start]
    rcases Nat.lt_or_ge c h.entries.length with hc | hc
    · rw [List.getElem?_append_left hc] at he
      exact hbooks.entry c e he
    · have hdone : ofConv c recorded = [] :=
        ofConv_eq_nil fun x hx heq => absurd (heq ▸ hbooks.known x hx) (Nat.not_lt.2 hc)
      have hwaiting : ofConv c (h.guards.map ConvSpanGuard.key) = [] := by
        refine ofConv_eq_nil fun x hx heq => ?_
        obtain ⟨g, hg, rfl⟩ := List.mem_map.1 hx
        exact absurd (heq ▸ (hbooks.fresh g hg).1) (Nat.not_lt.2 hc)
      rw [List.getElem?_append_right hc, List.getElem?_singleton] at he
      rw [hdone, hwaiting]
      split at he
      · obtain rfl := Option.some.inj he
        exact entryBooks_new _ rfl rfl rfl rfl rfl
      · cases he

/-- A span begins. -/
theorem Books.span (hbooks : Books recorded h) (conv : ℕ) (model variant label : String)
    (attributes : List (String × String)) (now : ℕ) :
    Books recorded (h.span conv model variant label attributes now) := by
  rw [Hub.span]
  cases he : h.entries[conv]? with
  | none => exact hbooks
  | some e =>
      obtain ⟨hlt, -⟩ := List.getElem?_eq_some_iff.1 he
      have hmodify := hbooks.modify conv
        (fun e => { e with nextSpanId := e.nextSpanId + 1, inflight := e.inflight + 1 })
        (h.guards ++ [e.guard conv model variant label attributes now]) [] ?_
        (fun x hx => absurd hx List.not_mem_nil) ?_ ?_
      · rwa [List.append_nil] at hmodify
      · intro g hg
        rcases List.mem_append.1 hg with hg | hg
        · exact hbooks.fresh g hg
        · obtain rfl := List.mem_singleton.1 hg
          exact ⟨hlt, rfl⟩
      · intro d hd
        rw [List.map_append, ofConv_append, List.map_singleton, ofConv_singleton,
          if_neg (show (e.guard conv model variant label attributes now).key.1 ≠ d from Ne.symm hd),
          List.append_nil]
      · intro e' he'
        obtain rfl := Option.some.inj (he.symm.trans he')
        rw [List.map_append, ofConv_append, List.map_singleton, ofConv_singleton,
          if_pos (show (e.guard conv model variant label attributes now).key.1 = conv from rfl),
          show ofConv conv ([] : List (ℕ × ConvSpan)) = [] from rfl, List.append_nil]
        exact (hbooks.entry conv e he).opened

/-- A change that is not to be seen leaves a list as it looks. -/
theorem map_modify_of_eq {γ δ : Type} (key : γ → δ) (f : γ → γ) (hf : ∀ x, key (f x) = key x) (i : ℕ)
    (l : List γ) : (l.modify i f).map key = l.map key := by
  refine List.ext_getElem? fun j => ?_
  rw [List.getElem?_map, List.getElem?_map, List.getElem?_modify]
  cases l[j]? with
  | none => rfl
  | some x => by_cases hij : i = j <;> simp [hij, hf]

/-- Tokens are attached to a span. -/
theorem Books.tokens (hbooks : Books recorded h) (i : ℕ) (prompt completion : Option ℕ) :
    Books recorded { h with guards := h.guards.modify i (·.tokens prompt completion) } := by
  refine ⟨hbooks.ring, fun g hg => ?_, hbooks.known, fun c e he => ?_⟩
  · have hmem : (g.entry, g.finished) ∈
        (h.guards.modify i (·.tokens prompt completion)).map fun g => (g.entry, g.finished) :=
      List.mem_map_of_mem hg
    rw [map_modify_of_eq (fun g : ConvSpanGuard => (g.entry, g.finished)) (·.tokens prompt completion)
      fun _ => rfl] at hmem
    obtain ⟨g', hg', heq⟩ := List.mem_map.1 hmem
    obtain ⟨hentry, hfinished⟩ := Prod.mk.inj heq
    exact hentry ▸ hfinished ▸ hbooks.fresh g' hg'
  · show EntryBooks _ (ofConv c ((h.guards.modify i (·.tokens prompt completion)).map ConvSpanGuard.key)) e
    rw [map_modify_of_eq ConvSpanGuard.key (·.tokens prompt completion) fun _ => rfl]
    exact hbooks.entry c e he

/-- **The books are kept by every event.** -/
theorem books_step (hbooks : Books recorded h) (event : Event) :
    Books (recorded ++ (step h event).2) (step h event).1 := by
  cases event with
  | start origin unixNowMs now =>
      rw [step, List.append_nil]
      exact hbooks.start origin unixNowMs now
  | addTurn conv =>
      rw [step, List.append_nil]
      exact hbooks.modify_frame fun e => ⟨rfl, rfl, rfl, rfl, rfl⟩
  | close conv now =>
      rw [step, List.append_nil]
      refine hbooks.modify_frame fun e => ?_
      rw [ConvEntry.close]
      split <;> exact ⟨rfl, rfl, rfl, rfl, rfl⟩
  | span conv model variant label attributes now =>
      rw [step, List.append_nil]
      exact hbooks.span conv model variant label attributes now
  | tokens guard prompt completion =>
      rw [step, List.append_nil]
      exact hbooks.tokens guard prompt completion
  | finish guard status now dropped =>
      rw [step]
      cases hg : h.guards[guard]? with
      | none =>
          rw [List.append_nil]
          exact hbooks
      | some g =>
          obtain ⟨hrecord, hfinished⟩ := hbooks.record hg status now
          dsimp only
          rw [record_finished hfinished, List.append_nil]
          exact hrecord
  | drop guard now =>
      rw [step]
      cases hg : h.guards[guard]? with
      | none =>
          rw [List.append_nil]
          exact hbooks
      | some g => exact (hbooks.record hg .ok now).1

/-- The spans that were recorded. -/
def recordedBy (events : List Event) : List (ℕ × ConvSpan) := (log step {} events).flatMap Prod.snd

/-- The hub after some events. -/
def hubAfter (events : List Event) : Hub := after step {} events

theorem books_initial : Books [] {} where
  ring := rfl
  fresh := fun g hg => absurd hg List.not_mem_nil
  known := fun x hx => absurd hx List.not_mem_nil
  entry := fun c e he => by cases he

/-- **The books are right after any events**: a conversation has as many calls under way as spans wait to be
recorded, stores those recorded first, knows whether any succeeded or failed, and every number it gave out is
that of one span. -/
theorem books (events : List Event) : Books (recordedBy events) (hubAfter events) := by
  induction events using List.reverseRecOn with
  | nil => exact books_initial
  | append_singleton events event ih =>
      rw [hubAfter, after_concat, recordedBy, log_concat, List.flatMap_append, List.flatMap_singleton]
      exact books_step ih event

/-- Looking up the last numbers gives the last elements. -/
theorem filterMap_range_reverse (l : List β) (k : ℕ) :
    ((List.range l.length).reverse.take k).filterMap (fun c => l[c]?) = l.reverse.take k := by
  induction l using List.reverseRecOn generalizing k with
  | nil => simp
  | append_singleton l x ih =>
      cases k with
      | zero => simp
      | succ k =>
          have hrest : ((List.range l.length).reverse.take k).filterMap (fun c => (l ++ [x])[c]?) =
              ((List.range l.length).reverse.take k).filterMap (fun c => l[c]?) := by
            refine List.filterMap_congr fun c hc => ?_
            have hlt := List.mem_range.1 (List.mem_reverse.1 (List.mem_of_mem_take hc))
            rw [List.getElem?_append_left hlt]
          rw [List.length_append, List.length_singleton, List.range_succ, List.reverse_append,
            List.reverse_append, List.reverse_singleton, List.reverse_singleton, List.singleton_append,
            List.singleton_append, List.take_succ_cons, List.take_succ_cons, List.filterMap_cons,
            List.getElem?_concat_length, hrest, ih]

/-- What a conversation is shown as, by the spans that were recorded and those that are under way. -/
structure Told (done : List ConvSpan) (waiting : List ℕ) (e : ConvEntry) (now : ℕ) : Prop where
  status : (summarize e now).status =
    if done ≠ [] ∧ ∀ s ∈ done, s.status = .error then "error"
    else if ∃ s ∈ done, s.status = .error then "partial" else "ok"
  isOpen : (summarize e now).isOpen = true ↔
    e.closed = false ∧ (waiting ≠ [] ∨ asSecs (now - e.started) < 5)

/-- A conversation is shown by its books. -/
theorem told_of_books (hbooks : EntryBooks done waiting e) (now : ℕ) : Told done waiting e now where
  status := by
    show statusOf e = _
    have hok : e.anyOk = true ↔ ∃ s ∈ done, s.status = .ok := by
      rw [hbooks.anyOk, List.any_eq_true]
      simp only [decide_eq_true_eq]
    have herr : e.anyErr = true ↔ ∃ s ∈ done, s.status = .error := by
      rw [hbooks.anyErr, List.any_eq_true]
      simp only [decide_eq_true_eq]
    have hfailed : (done ≠ [] ∧ ∀ s ∈ done, s.status = .error) ↔ e.anyErr = true ∧ ¬ e.anyOk = true := by
      rw [hok, herr]
      constructor
      · rintro ⟨hne, hall⟩
        obtain ⟨s, hs⟩ := List.exists_mem_of_ne_nil done hne
        refine ⟨⟨s, hs, hall s hs⟩, ?_⟩
        rintro ⟨s', hs', hstatus⟩
        cases hstatus.symm.trans (hall s' hs')
      · rintro ⟨⟨s, hs, -⟩, hnone⟩
        refine ⟨List.ne_nil_of_mem hs, fun s' hs' => ?_⟩
        cases hstatus : s'.status with
        | ok => exact absurd ⟨s', hs', hstatus⟩ hnone
        | error => rfl
    simp only [hfailed, ← herr, statusOf]
    cases e.anyOk <;> cases e.anyErr <;> rfl
  isOpen := by
    show isOpen e now = true ↔ _
    rw [ConvTrace.isOpen, hbooks.inflight]
    simp [List.length_pos_iff]

/-- **The last conversations are listed, the newest first**, each as its spans went. -/
theorem list_newest (events : List Event) (limit now : ℕ) :
    list (hubAfter events) limit now =
        ((hubAfter events).entries.reverse.take (min limit maxConversations)).map (summarize · now) ∧
      ∀ c e, (hubAfter events).entries[c]? = some e →
        Told (ofConv c (recordedBy events)) (ofConv c ((hubAfter events).guards.map ConvSpanGuard.key)) e now := by
  have hring := (books events).ring
  refine ⟨?_, fun c e he => told_of_books ((books events).entry c e he) now⟩
  rw [list, hring, List.reverse_drop, List.length_range, List.take_take, ← List.map_filterMap,
    filterMap_range_reverse]
  refine congrArg (List.map _) (List.take_eq_take_iff.2 ?_)
  rw [List.length_reverse]
  omega

end ConvTrace
