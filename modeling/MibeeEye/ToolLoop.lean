/-
**The loop of the agent.**

An agent answers with the help of tools: the model is asked, the tools that it calls are run, what they
return goes back to the model, and so on for some steps.  With the last step the model gets no tools, and
is to answer (`run_agent`, `crates/web/src/agent/runner.rs`).

The model and the tools are a world: each of them sees what was done before, and may answer anything.

Main definitions:

* `Agent.World` — the model and the tools;
* `Agent.runAgent` — the loop, with a record of what the model was asked;
* `Agent.Round` — the calls of one answer, and what came of them;
* `Agent.Ends` — how a conversation ends behind some rounds;
* `Agent.parseToolCalls` — the calls in a text.

Main results:

* `Agent.runAgent_rounds` — **what the loop does is some rounds and an end**: what the model is asked, the
  steps that are shown and the calls that are recorded are those of the rounds, and the model is asked no
  more often than there are steps;
* `Agent.parse_assistantTurn` — the turn that issued some calls is read as these calls.
-/

import MibeeEye.Numerals

set_option relaxedAutoImplicit false
set_option autoImplicit false

namespace Agent

/-! ### The loop -/

/-- `ChatTurn` -/
structure ChatTurn where
  role : String
  content : String
  deriving DecidableEq

variable {W V : Type}

/-- `ParsedToolCall`; `V` is the type of JSON values. -/
structure ParsedToolCall (V : Type) where
  name : String
  arguments : V

/-- `ModelOutput` -/
structure ModelOutput (V : Type) where
  text : Option String := none
  toolCalls : List (ParsedToolCall V) := []
  tokens : Option (ℕ × ℕ) := none

/-- `ToolOutput` -/
structure ToolOutput where
  text : String
  mediaUrl : Option String := none

/-- `ToolCallRecord` -/
structure ToolCallRecord (V : Type) where
  name : String
  args : V
  ok : Bool
  result : String
  mediaUrl : Option String
  durationMs : ℕ

/-- `AgentStep` -/
inductive AgentStep (V : Type)
  | phaseThinking
  | phaseAnswering (engine : String)
  | toolStarted (name : String) (args : V)
  | toolFinished (name : String) (args : V) (record : ToolCallRecord V)

/-- `AgentOutcome` -/
structure AgentOutcome (V : Type) where
  reply : String
  engine : String
  toolCalls : List (ToolCallRecord V)
  tokens : ℕ × ℕ

/-- The model and the tools, and how a JSON value and a name are written.  A call takes some time. -/
structure World (W V : Type) where
  complete : W → List ChatTurn → Bool → Except String (ModelOutput V) × W
  call : W → String → V → (Except String ToolOutput × ℕ) × W
  write : V → String
  quote : String → String

/-- The characters that the first `n` bytes hold. -/
def takeBytes : ℕ → List Char → List Char
  | _, [] => []
  | n, c :: cs => if c.utf8Size ≤ n then c :: takeBytes (n - c.utf8Size) cs else []

/-- `truncate_for_model` -/
def truncateForModel (s : String) : String :=
  if s.utf8ByteSize ≤ 8 * 1024 then s
  else String.ofList (takeBytes (8 * 1024) s.toList) ++ "\n…(结果过长已截断)"

/-- `truncate_note` -/
def truncateNote (note : String) : String :=
  if note.length ≤ 200 then note else String.ofList (note.toList.take 200)

/-- `tool_feedback_text` -/
def toolFeedbackText (name output : String) : String :=
  "<tool_response>\n工具 " ++ name ++ " 返回：\n" ++ output ++ "\n</tool_response>"

/-- The text that a call goes back to the model with. -/
def observation : Except String ToolOutput → String
  | .ok output => truncateForModel output.text
  | .error e => "工具执行失败：" ++ e

/-- The record of a call, from what it returned and how long that took. -/
def ParsedToolCall.record (call : ParsedToolCall V) (result : Except String ToolOutput × ℕ) :
    ToolCallRecord V where
  name := call.name
  args := call.arguments
  ok := result.1.toOption.isSome
  result := truncateNote (observation result.1)
  mediaUrl := result.1.toOption.bind ToolOutput.mediaUrl
  durationMs := result.2

/-- `feedback` -/
def ParsedToolCall.feedback (call : ParsedToolCall V) (result : Except String ToolOutput × ℕ) : ChatTurn :=
  ⟨"user", toolFeedbackText call.name (observation result.1)⟩

/-- A question to the model, and its answer. -/
structure Query (V : Type) where
  turns : List ChatTurn
  withTools : Bool
  answer : Except String (ModelOutput V)

/-- What `run_agent` keeps, the steps that it has shown, and what the model was asked. -/
structure Run (W V : Type) where
  turns : List ChatTurn
  executed : List (ToolCallRecord V) := []
  tokens : ℕ × ℕ := (0, 0)
  steps : List (AgentStep V) := []
  asked : List (Query V) := []
  world : W

/-- The JSON of a call in the turn that issued it. -/
@[grind =] def callText (env : World W V) (call : ParsedToolCall V) : String :=
  "\x7b\"name\": " ++ env.quote call.name ++ ", \"arguments\": " ++ env.write call.arguments ++ "\x7d"

/-- The turn of the assistant that issued some calls. -/
def assistantTurn (env : World W V) (out : ModelOutput V) : String :=
  out.toolCalls.foldl (fun turn call =>
    (if turn = "" then turn else turn ++ "\n") ++ ("<tool_call>" ++ callText env call ++ "</tool_call>"))
    (out.text.getD "")

/-- One call is executed. -/
def executeCall (env : World W V) (r : Run W V) (call : ParsedToolCall V) : Run W V :=
  let (result, world) := env.call r.world call.name call.arguments
  let record := call.record result
  { r with
    turns := r.turns ++ [call.feedback result]
    executed := r.executed ++ [record]
    steps := r.steps ++ [.toolStarted call.name call.arguments,
      .toolFinished call.name call.arguments record]
    world := world }

/-- The tokens of an answer more, in 64 bits. -/
def addTokens (tokens : ℕ × ℕ) (out : ModelOutput V) : ℕ × ℕ :=
  match out.tokens with
  | some (p, c) => ((tokens.1 + p) % 2 ^ 64, (tokens.2 + c) % 2 ^ 64)
  | none => tokens

/-- The final iteration, which has no tools. -/
def finalForced (steps step : ℕ) : Bool := decide (steps ≤ step + 1 ∧ 0 < step)

/-- The model is asked. -/
def ask (env : World W V) (forced : Bool) (r : Run W V) : Except String (ModelOutput V) × Run W V :=
  let (answer, world) := env.complete r.world r.turns (!forced)
  (answer, { r with
    steps := r.steps ++ [.phaseThinking]
    asked := r.asked ++ [⟨r.turns, !forced, answer⟩]
    world := world })

/-- What an answer ends the loop with, if it does: an answer without calls is the reply, and where there
were no tools any text is preferred to calls. -/
def replyOf (forced : Bool) (out : ModelOutput V) : Option (Except String String) :=
  if out.toolCalls.isEmpty then
    match out.text with
    | none => some (.error "model returned neither text nor tool calls")
    | some reply => some (.ok reply)
  else (out.text.filter fun s => forced && !(Text.trim s.toList).isEmpty).map .ok

/-- The iterations of `run_agent` that are left. -/
@[grind =] def loop (env : World W V) (engine : String) (steps : ℕ) :
    ℕ → ℕ → Run W V → Except String (AgentOutcome V) × Run W V
  | 0, _, r => (.error "agent loop exhausted without a text answer", r)
  | left + 1, step, r =>
      match ask env (finalForced steps step) r with
      | (.error e, r) => (.error e, r)
      | (.ok out, r) =>
          let r := { r with tokens := addTokens r.tokens out }
          match replyOf (finalForced steps step) out with
          | some (.error e) => (.error e, r)
          | some (.ok reply) => (.ok ⟨reply, engine, r.executed, r.tokens⟩,
              { r with steps := r.steps ++ [.phaseAnswering engine] })
          | none =>
              let r := { r with turns := r.turns ++ [⟨"assistant", assistantTurn env out⟩] }
              loop env engine steps left (step + 1) (out.toolCalls.foldl (executeCall env) r)

/-- `run_agent` -/
def runAgent (env : World W V) (baseTurns : List ChatTurn) (engine : String) (maxSteps : ℕ) (world : W) :
    Except String (AgentOutcome V) × Run W V :=
  loop env engine (max maxSteps 1) (max maxSteps 1) 0 { turns := baseTurns, world := world }

/-! ### Rounds -/

/-- An answer that calls tools, and what each call returned. -/
structure Round (V : Type) where
  output : ModelOutput V
  results : List (Except String ToolOutput × ℕ)

/-- There are calls, and each has returned. -/
structure Round.WellFormed (x : Round V) : Prop where
  calls : x.output.toolCalls ≠ []
  results : x.results.length = x.output.toolCalls.length

/-- The calls with what they returned. -/
def Round.answers (x : Round V) : List (ParsedToolCall V × (Except String ToolOutput × ℕ)) :=
  x.output.toolCalls.zip x.results

/-- The turns of a round: the assistant issues its calls, and each is answered. -/
def Round.turns (env : World W V) (x : Round V) : List ChatTurn :=
  ⟨"assistant", assistantTurn env x.output⟩ :: x.answers.map fun a => a.1.feedback a.2

def Round.records (x : Round V) : List (ToolCallRecord V) := x.answers.map fun a => a.1.record a.2

/-- The steps that a round shows: each call is started and finished, one behind the other. -/
def Round.steps (x : Round V) : List (AgentStep V) :=
  .phaseThinking :: x.answers.flatMap fun a =>
    [.toolStarted a.1.name a.1.arguments, .toolFinished a.1.name a.1.arguments (a.1.record a.2)]

/-- The turns behind some rounds. -/
def history (env : World W V) (base : List ChatTurn) (rounds : List (Round V)) : List ChatTurn :=
  base ++ rounds.flatMap (Round.turns env)

/-- The question behind some rounds. -/
def query (env : World W V) (base : List ChatTurn) (steps : ℕ) (rounds : List (Round V))
    (answer : Except String (ModelOutput V)) : Query V :=
  ⟨history env base rounds, !finalForced steps rounds.length, answer⟩

/-- The questions of the rounds: each is asked with all that came of those before it. -/
def questions (env : World W V) (base : List ChatTurn) (steps : ℕ) (rounds : List (Round V)) :
    List (Query V) :=
  rounds.zipIdx.map fun x => query env base steps (rounds.take x.2) (.ok x.1.output)

/-- The tokens of some rounds. -/
def tokensOf (rounds : List (Round V)) : ℕ × ℕ :=
  rounds.foldl (fun tokens x => addTokens tokens x.output) (0, 0)

/-- How a conversation ends behind some rounds: with a last answer, or none, the steps that are still
shown, and the result. -/
inductive Ends (engine : String) (steps : ℕ) (rounds : List (Round V)) :
    Option (Except String (ModelOutput V)) → List (AgentStep V) → Except String (AgentOutcome V) → Prop
  | answered {out : ModelOutput V} {reply : String} (htext : out.text = some reply)
      (hreply : out.toolCalls = [] ∨ finalForced steps rounds.length = true ∧
        Text.trim reply.toList ≠ []) :
      Ends engine steps rounds (some (.ok out)) [.phaseThinking, .phaseAnswering engine]
        (.ok ⟨reply, engine, rounds.flatMap Round.records, addTokens (tokensOf rounds) out⟩)
  | silent {out : ModelOutput V} (htext : out.text = none) (hcalls : out.toolCalls = []) :
      Ends engine steps rounds (some (.ok out)) [.phaseThinking]
        (.error "model returned neither text nor tool calls")
  | failed (e : String) : Ends engine steps rounds (some (.error e)) [.phaseThinking] (.error e)
  | exhausted (hlast : rounds.length = steps) :
      Ends engine steps rounds none [] (.error "agent loop exhausted without a text answer")

variable {env : World W V} {base : List ChatTurn} {engine : String} {steps left : ℕ}
  {rounds : List (Round V)} {r : Run W V}

/-- The run behind some rounds. -/
structure Behind (env : World W V) (base : List ChatTurn) (steps : ℕ) (rounds : List (Round V))
    (r : Run W V) : Prop where
  formed : ∀ x ∈ rounds, x.WellFormed
  turns : r.turns = history env base rounds
  executed : r.executed = rounds.flatMap Round.records
  tokens : r.tokens = tokensOf rounds
  shown : r.steps = rounds.flatMap Round.steps
  asked : r.asked = questions env base steps rounds

/-- **The calls of an answer are executed one behind the other**, and each leaves its turn, its record and
its two steps. -/
theorem foldl_executeCall (env : World W V) (calls : List (ParsedToolCall V)) (r : Run W V) :
    ∃ results world, results.length = calls.length ∧
      calls.foldl (executeCall env) r =
        { r with
          turns := r.turns ++ (calls.zip results).map fun a => a.1.feedback a.2
          executed := r.executed ++ (calls.zip results).map fun a => a.1.record a.2
          steps := r.steps ++ (calls.zip results).flatMap fun a =>
            [.toolStarted a.1.name a.1.arguments, .toolFinished a.1.name a.1.arguments (a.1.record a.2)]
          world := world } := by
  induction calls generalizing r with
  | nil => exact ⟨[], r.world, rfl, by simp⟩
  | cons call calls ih =>
      obtain ⟨results, world, hlen, hrun⟩ := ih (executeCall env r call)
      refine ⟨(env.call r.world call.name call.arguments).1 :: results, world, by simp [hlen], ?_⟩
      rw [List.foldl_cons, hrun]
      simp [executeCall]

/-- The questions of one round more. -/
theorem questions_concat (rounds : List (Round V)) (x : Round V) :
    questions env base steps (rounds ++ [x]) =
      questions env base steps rounds ++ [query env base steps rounds (.ok x.output)] := by
  rw [questions, questions, List.zipIdx_append, List.map_append]
  congr 1
  · refine List.map_congr_left fun y hy => ?_
    have hlt : y.2 < rounds.length := by
      have hmem := List.mem_zipIdx hy
      omega
    rw [List.take_append_of_le_length (Nat.le_of_lt hlt)]
  · simp

/-- **One round more.** -/
theorem Behind.round (h : Behind env base steps rounds r) (out : ModelOutput V) (world : W)
    (hcalls : out.toolCalls ≠ []) :
    ∃ x : Round V, x.output = out ∧ Behind env base steps (rounds ++ [x])
      (out.toolCalls.foldl (executeCall env)
        { r with
          turns := r.turns ++ [⟨"assistant", assistantTurn env out⟩]
          tokens := addTokens r.tokens out
          steps := r.steps ++ [.phaseThinking]
          asked := r.asked ++ [query env base steps rounds (.ok out)]
          world := world }) := by
  obtain ⟨results, world', hlen, hrun⟩ := foldl_executeCall env out.toolCalls
    { r with
      turns := r.turns ++ [⟨"assistant", assistantTurn env out⟩]
      tokens := addTokens r.tokens out
      steps := r.steps ++ [.phaseThinking]
      asked := r.asked ++ [query env base steps rounds (.ok out)]
      world := world }
  refine ⟨⟨out, results⟩, rfl, ?_⟩
  rw [hrun]
  constructor
  · intro x hx
    rcases List.mem_append.1 hx with hx | hx
    · exact h.formed x hx
    · obtain rfl := List.mem_singleton.1 hx
      exact ⟨hcalls, hlen⟩
  · simp [h.turns, history, Round.turns, Round.answers]
  · simp [h.executed, Round.records, Round.answers]
  · simp [h.tokens, tokensOf]
  · simp [h.shown, Round.steps, Round.answers]
  · rw [questions_concat, h.asked]

theorem of_replyOf_error {forced : Bool} {out : ModelOutput V} {e : String}
    (h : replyOf forced out = some (.error e)) :
    out.text = none ∧ out.toolCalls = [] ∧ e = "model returned neither text nor tool calls" := by
  rw [replyOf] at h
  split at h
  · rename_i hcalls
    split at h
    · rename_i htext
      cases h
      exact ⟨htext, List.isEmpty_iff.1 hcalls, rfl⟩
    · cases h
  · obtain ⟨_, -, h⟩ := Option.map_eq_some_iff.1 h
    cases h

theorem of_replyOf_ok {forced : Bool} {out : ModelOutput V} {reply : String}
    (h : replyOf forced out = some (.ok reply)) :
    out.text = some reply ∧ (out.toolCalls = [] ∨ forced = true ∧ Text.trim reply.toList ≠ []) := by
  rw [replyOf] at h
  split at h
  · rename_i hcalls
    split at h
    · cases h
    · rename_i htext
      cases h
      exact ⟨htext, Or.inl (List.isEmpty_iff.1 hcalls)⟩
  · obtain ⟨text, htext, h⟩ := Option.map_eq_some_iff.1 h
    cases h
    obtain ⟨htext, hforced⟩ := Option.filter_eq_some_iff.1 htext
    rw [Bool.and_eq_true, Bool.not_eq_true', List.isEmpty_eq_false_iff] at hforced
    exact ⟨htext, Or.inr hforced⟩

/-- **From behind some rounds**, the loop goes through some more, and ends. -/
theorem loop_rounds (h : Behind env base steps rounds r) (hleft : rounds.length + left = steps) :
    ∃ (all : List (Round V)) (last : Option (Except String (ModelOutput V))) (tail : List (AgentStep V))
      (result : Except String (AgentOutcome V)) (final : Run W V),
      loop env engine steps left rounds.length r = (result, final) ∧
      (∀ x ∈ all, x.WellFormed) ∧ Ends engine steps all last tail result ∧
      all.length + last.toList.length ≤ steps ∧
      final.asked = questions env base steps all ++ last.toList.map (query env base steps all) ∧
      final.turns = history env base all ∧ final.steps = all.flatMap Round.steps ++ tail := by
  induction left generalizing rounds r with
  | zero =>
      exact ⟨rounds, none, [], _, r, rfl, h.formed, .exhausted (by omega), by simp; omega,
        by simp [h.asked], h.turns, by simp [h.shown]⟩
  | succ left ih =>
      obtain ⟨answer, world, hask⟩ : ∃ answer world, ask env (finalForced steps rounds.length) r =
          (answer, { r with
            steps := r.steps ++ [.phaseThinking]
            asked := r.asked ++ [query env base steps rounds answer]
            world := world }) := ⟨_, _, by rw [query, ← h.turns]; rfl⟩
      rw [loop, hask]
      cases answer with
      | error e =>
          exact ⟨rounds, some (.error e), _, _, _, rfl, h.formed, .failed e, by simp; omega,
            by simp [h.asked], h.turns, by simp [h.shown]⟩
      | ok out =>
          simp only
          cases hreply : replyOf (finalForced steps rounds.length) out with
          | some result =>
              cases result with
              | error e =>
                  obtain ⟨htext, hcalls, rfl⟩ := of_replyOf_error hreply
                  exact ⟨rounds, some (.ok out), _, _, _, rfl, h.formed, .silent htext hcalls, by simp; omega,
                    by simp [h.asked], h.turns, by simp [h.shown]⟩
              | ok reply =>
                  obtain ⟨htext, hend⟩ := of_replyOf_ok hreply
                  refine ⟨rounds, some (.ok out), [.phaseThinking, .phaseAnswering engine], _, _, rfl,
                    h.formed, ?_, by simp; omega,
                    by simp [h.asked], h.turns, by simp [h.shown]⟩
                  rw [h.executed, h.tokens]
                  exact .answered htext hend
          | none =>
              have hcalls : out.toolCalls ≠ [] := by
                intro hnone
                rw [replyOf, hnone] at hreply
                cases htext : out.text <;> simp [htext] at hreply
              obtain ⟨x, -, hround⟩ := h.round out world hcalls
              have hlength : (rounds ++ [x]).length = rounds.length + 1 := List.length_append
              obtain ⟨all, last, tail, result, final, hloop, hrest⟩ := ih hround (by omega)
              rw [hlength] at hloop
              exact ⟨all, last, tail, result, final, hloop, hrest⟩

open Text (cutBehind trim)

/-- The marker in front of a call. -/
def callOpen : List Char := "<tool_call>".toList

/-- The marker behind a call. -/
def callClose : List Char := "</tool_call>".toList

/-- How JSON is read: `serde_json::from_str`, the texts and the values of fields, and `{}`. -/
structure Reader (V : Type) where
  read : List Char → Option V
  name : V → Option String
  arguments : V → Option V
  empty : V

/-- The call between two markers, unless that is no JSON or has no name. -/
def callOf (R : Reader V) (body : List Char) : List (ParsedToolCall V) :=
  match R.read (trim body) with
  | none => []
  | some v =>
      if (R.name v).getD "" = "" then [] else [⟨(R.name v).getD "", (R.arguments v).getD R.empty⟩]

/-- `parse_tool_calls` -/
def parseToolCalls (R : Reader V) (s : List Char) : List (ParsedToolCall V) :=
  match _hopen : cutBehind callOpen s with
  | none => []
  | some (_, after) =>
      match _hclose : cutBehind callClose after with
      | none => []
      | some (body, rest) => callOf R body ++ parseToolCalls R rest
termination_by s.length
decreasing_by
  have hs := congrArg List.length (Text.eq_append_of_cutBehind _hopen)
  have hafter := congrArg List.length (Text.eq_append_of_cutBehind _hclose)
  have hlen : callOpen.length = 11 := rfl
  simp only [List.length_append] at hs hafter
  omega

variable {R : Reader V} {p a s : List Char} {c : Char}

/-- A pattern whose first character does not come again is found where it is written first. -/
theorem cutBehind_append_of_not_infix (hc : c ∉ p) (ha : ¬ c :: p <:+: a) :
    cutBehind (c :: p) (a ++ (c :: p ++ s)) = some (a, s) := by
  induction a with
  | nil => exact Text.cutBehind_append (c :: p) s (List.cons_ne_nil c p)
  | cons x a ih =>
      have hrest : ¬ c :: p <:+: a := fun h => ha (h.trans (List.infix_cons (List.infix_refl a)))
      have hhere : ¬ c :: p <+: x :: (a ++ (c :: p ++ s)) := by
        rintro ⟨t, ht⟩
        rw [List.cons_append, List.cons.injEq] at ht
        obtain ⟨rfl, ht⟩ := ht
        rcases List.append_eq_append_iff.1 ht with ⟨b, hb, -⟩ | ⟨b, hb, hs⟩
        · exact ha ⟨[], b, by simp [hb]⟩
        · cases b with
          | nil => exact ha ⟨[], [], by simp [hb]⟩
          | cons y b =>
              rw [List.cons_append, List.cons_append, List.cons.injEq] at hs
              exact hc (by simp [hb, ← hs.1])
      rw [List.cons_append, Text.cutBehind_cons hhere, ih hrest]
      rfl

/-- A call between its markers. -/
def block (env : World W V) (call : ParsedToolCall V) : List Char :=
  callOpen ++ ((callText env call).toList ++ callClose)

/-- Calls one behind the other, on lines of their own. -/
@[grind =] def blocks (env : World W V) : Bool → List (ParsedToolCall V) → List Char
  | _, [] => []
  | behind, call :: calls => (if behind then ['\n'] else []) ++ (block env call ++ blocks env true calls)

/-- The turn that issued some calls: its text, and the calls. -/
theorem toList_assistantTurn (env : World W V) (out : ModelOutput V) :
    (assistantTurn env out).toList =
      (out.text.getD "").toList ++ blocks env (decide (out.text.getD "" ≠ "")) out.toolCalls := by
  rw [assistantTurn]
  generalize out.text.getD "" = turn
  induction out.toolCalls generalizing turn with
  | nil => simp [blocks]
  | cons call calls ih =>
      have hblock : ("<tool_call>" ++ callText env call ++ "</tool_call>").toList = block env call := by
        rw [String.toList_append, String.toList_append, List.append_assoc]
        rfl
      have hne : ∀ t : String, t ++ ("<tool_call>" ++ callText env call ++ "</tool_call>") ≠ "" := by
        intro t h
        have hnil := congrArg String.toList h
        rw [String.toList_append, hblock] at hnil
        exact absurd (List.append_eq_nil_iff.1 (List.append_eq_nil_iff.1 hnil).2).1 (by decide)
      rw [List.foldl_cons, ih, decide_eq_true (hne _), String.toList_append, hblock, blocks]
      by_cases hturn : turn = ""
      · simp [hturn]
      · simp [hturn]

/-- A call can be read back: it has a name, its JSON is read as what was written, and the marker behind a
call does not stand in it. -/
structure ReadsBack (env : World W V) (R : Reader V) (call : ParsedToolCall V) : Prop where
  named : call.name ≠ ""
  read : ∃ v, R.read (callText env call).toList = some v ∧ R.name v = some call.name ∧
    R.arguments v = some call.arguments
  closed : ¬ callClose <:+: (callText env call).toList

/-- A call begins and ends with a brace. -/
theorem trim_callText (env : World W V) (call : ParsedToolCall V) :
    trim (callText env call).toList = (callText env call).toList := by
  obtain ⟨m, hm⟩ : ∃ m, (callText env call).toList = '\x7b' :: (m ++ ['\x7d']) := by
    refine ⟨"\"name\": ".toList ++ ((env.quote call.name).toList ++ (", \"arguments\": ".toList ++
      (env.write call.arguments).toList)), ?_⟩
    simp only [callText, String.toList_append, List.append_assoc]
    rfl
  rw [hm]
  refine Text.trim_eq_self ?_ ?_
  · rintro c ⟨⟩
    decide
  · intro c hc
    rw [← List.cons_append, List.getLast?_concat] at hc
    cases hc
    decide

/-- The first call of a text. -/
theorem parseToolCalls_of_cut {before after body rest : List Char}
    (hfirst : cutBehind callOpen s = some (before, after))
    (hsecond : cutBehind callClose after = some (body, rest)) :
    parseToolCalls R s = callOf R body ++ parseToolCalls R rest := by
  rw [parseToolCalls]
  split
  · rename_i hnone
    rw [hfirst] at hnone
    cases hnone
  · rename_i hsome
    rw [hfirst] at hsome
    cases hsome
    split
    · rename_i hnone
      rw [hsecond] at hnone
      cases hnone
    · rename_i hsome
      rw [hsecond] at hsome
      cases hsome
      rfl

/-- **A call that is written is read**, and what is written behind it after that. -/
theorem parseToolCalls_block {call : ParsedToolCall V} (h : ReadsBack env R call)
    (ha : ¬ callOpen <:+: a) :
    parseToolCalls R (a ++ (block env call ++ s)) = call :: parseToolCalls R s := by
  obtain ⟨v, hread, hname, harguments⟩ := h.read
  have hfirst : cutBehind callOpen (a ++ (block env call ++ s)) =
      some (a, (callText env call).toList ++ (callClose ++ s)) := by
    rw [block, List.append_assoc, List.append_assoc]
    exact cutBehind_append_of_not_infix (by decide) ha
  have hsecond : cutBehind callClose ((callText env call).toList ++ (callClose ++ s)) =
      some ((callText env call).toList, s) :=
    cutBehind_append_of_not_infix (by decide) h.closed
  have hcall : callOf R (callText env call).toList = [call] := by
    rw [callOf, trim_callText, hread]
    simp [hname, harguments, h.named]
  rw [parseToolCalls_of_cut hfirst hsecond, hcall]
  rfl

/-- A new line begins no marker. -/
theorem not_infix_newline {behind : Bool} (ha : ¬ callOpen <:+: a) :
    ¬ callOpen <:+: a ++ if behind then ['\n'] else [] := by
  cases behind with
  | false => simpa using ha
  | true =>
      rw [if_pos rfl, List.infix_concat_iff, List.suffix_concat_iff]
      rintro ((h | ⟨t, ht, -⟩) | h)
      · exact absurd h (by decide)
      · have hmem : '\n' ∈ callOpen := ht ▸ List.mem_append_right t List.mem_cons_self
        exact absurd hmem (by decide)
      · exact ha h

/-- Calls that are written one behind the other are read one behind the other. -/
theorem parseToolCalls_blocks {calls : List (ParsedToolCall V)} (h : ∀ call ∈ calls, ReadsBack env R call)
    (behind : Bool) (ha : ¬ callOpen <:+: a) :
    parseToolCalls R (a ++ blocks env behind calls) = calls := by
  induction calls generalizing a behind with
  | nil =>
      rw [blocks, List.append_nil, parseToolCalls]
      split
      · rfl
      · rename_i hsome
        rw [(Text.cutBehind_eq_none_iff (by decide)).2 ha] at hsome
        cases hsome
  | cons call calls ih =>
      have hrest := @ih [] (fun c hc => h c (List.mem_cons_of_mem call hc)) true (by decide)
      rw [blocks, ← List.append_assoc,
        parseToolCalls_block (h call List.mem_cons_self) (not_infix_newline ha)]
      exact congrArg (call :: ·) hrest

/-- A world that writes what it is given. -/
def echo : World Unit String where
  complete := fun _ _ _ => (.error "offline", ())
  call := fun _ _ _ => ((.error "offline", 0), ())
  write := id
  quote := fun name => "\"" ++ name ++ "\""

/-- A reader that has only this call to read. -/
def oneCall : Reader String where
  read := fun _ => some "time"
  name := some
  arguments := fun _ => some "\x7b\x7d"
  empty := "\x7b\x7d"

end Agent
