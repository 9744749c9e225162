/-
**The client of a tool server.**

A tool server is a subprocess that speaks JSON-RPC on its standard streams, one document a line
(`crates/web/src/agent/mcp.rs`).  The client numbers its requests, and takes the first document with the
number of a request for its answer; it refuses what the server requests, and passes over the rest.  Its
operations take turns at the connection, each of them with what it meets there: documents, failures, or the
end of its time.

The server counts its own requests, and nothing keeps it from a number that the client waits for: such a
request is taken for the answer.

Main definitions:

* `Mcp.converse` — one request;
* `Mcp.Client`, `Mcp.step` — the client, over its connections;
* `Mcp.Honest` — what a server may write.

Main results:

* `Mcp.converse_result` — what a request that has a result has read and refused;
* `Mcp.call_answered` — **a result is the answer to its request**, in every run with an honest server;
* `Mcp.closed_stays` — **a server that is gone is not started again**.
-/

import MibeeEye.JsonValue
import MibeeEye.StepMachine
import MibeeEye.Text

set_option relaxedAutoImplicit false
set_option autoImplicit false

namespace Mcp

open Json (Value)

variable {F : Type}

/-! ### One request -/

/-- `Value::as_i64` -/
def asI64 : Value F → Option ℤ
  | .number (.posInt n) => if (n : ℕ) < 2 ^ 63 then some (n : ℕ) else none
  | .number (.negInt n) => some (Int.negSucc n)
  | _ => none

/-- The number of a document. -/
def idOf (v : Value F) : Option ℤ := (v.get "id").bind asI64

/-- What an operation meets where it waits: a message is sent, a document comes, or a line that is none, the
stream is closed or fails, the time is over (`IO_TIMEOUT`, `INIT_TIMEOUT`), or the caller gives up. -/
inductive Input (F : Type)
  | sent
  | frame (v : Value F)
  | malformed (e : String)
  | closed
  | failed (e : String)
  | late
  | abandoned

/-- How an operation ends. -/
inductive Outcome (F : Type)
  | result (v : Value F)
  | error (message : String)
  | late
  | abandoned

/-- What an answer says. -/
def answer (v : Value F) : Outcome F :=
  match v.get "error" with
  | some err =>
      let code := ((err.get "code").bind asI64).getD 0
      let message := ((err.get "message").bind Value.asStr).getD ""
      .error ("JSON-RPC error " ++ toString code ++ ": " ++ message)
  | none => .result ((v.get "result").getD .null)

/-- How an operation ends that meets anything but a document where it waits. -/
def interrupted : Input F → Option (Outcome F)
  | .malformed e => some (.error ("bad JSON-RPC frame from server: " ++ e))
  | .closed => some (.error "mcp server closed stdout")
  | .failed e => some (.error e)
  | .late => some .late
  | .abandoned => some .abandoned
  | .sent | .frame _ => none

/-- A document with another number is a request of the server, which is refused under its own. -/
def refusable (v : Value F) : Option (Value F) := if (v.get "method").isSome then v.get "id" else none

/-- The loop of `Conn::request`: how it ends, the requests of the server that were refused, and what it has
not met yet. -/
@[grind =]
def awaitAnswer (id : ℤ) : List (Input F) → Option (Outcome F × List (Value F) × List (Input F))
  | [] => none
  | .frame v :: inputs =>
      if idOf v = some id then some (answer v, [], inputs)
      else
        match refusable v with
        | none => awaitAnswer id inputs
        | some theirs =>
            match inputs with
            | .sent :: inputs =>
                (awaitAnswer id inputs).map fun r => (r.1, theirs :: r.2.1, r.2.2)
            | .failed e :: inputs => some (.error e, [], inputs)
            | .late :: inputs => some (.late, [], inputs)
            | .abandoned :: inputs => some (.abandoned, [], inputs)
            | _ => none
  | input :: inputs => (interrupted input).map fun outcome => (outcome, [], inputs)

/-- `Conn::request`: the request is sent, and its answer awaited. -/
def converse (id : ℤ) : List (Input F) → Option (Outcome F × List (Value F) × List (Input F))
  | .sent :: inputs => awaitAnswer id inputs
  | .failed e :: inputs => some (.error e, [], inputs)
  | .late :: inputs => some (.late, [], inputs)
  | .abandoned :: inputs => some (.abandoned, [], inputs)
  | _ => none

/-! ### The client -/

/-- A request, with its number. -/
structure Question (F : Type) where
  id : ℤ
  method : String
  params : Option (Value F)

/-- What became of a request. -/
structure Entry (F : Type) where
  method : String
  params : Option (Value F)
  outcome : Outcome F

/-- `McpClient`: the next number of the connection, if there is one, what may have been asked on it, and the
requests of the server that were refused; and what became of all requests. -/
structure Client (F : Type) where
  conn : Option ℤ := none
  asked : List (Question F) := []
  refused : List (Value F) := []
  log : List (Entry F) := []

/-- The operations, each under the lock of the connection: `ensure_initialized`, with whether the subprocess
can be started, and `request`. -/
inductive Event (F : Type)
  | ensureInitialized (spawned : Bool) (inputs : List (Input F))
  | request (method : String) (params : Option (Value F)) (inputs : List (Input F))

/-- The name of the server, and the parameters of the handshake. -/
structure Config (F : Type) where
  name : String
  initParams : Value F

/-- The first request of a connection. -/
def Config.handshake (cfg : Config F) : Question F := ⟨1, "initialize", some cfg.initParams⟩

/-- A new subprocess, whose connection is kept if the handshake ends and is acknowledged. -/
@[grind =]
def Client.shake (cfg : Config F) (c : Client F) (inputs : List (Input F)) : Option (Client F) :=
  match converse 1 inputs with
  | none => none
  | some (outcome, refused, rest) =>
      let c := { c with asked := [cfg.handshake], refused := refused }
      match outcome, rest with
      | .result _, [.sent] => some { c with conn := some 2 }
      | .result _, [.failed _] | .result _, [.late] | .result _, [.abandoned] => some c
      | .result _, _ => none
      | _, [] => some c
      | _, _ => none

/-- One operation. -/
def step (cfg : Config F) (c : Client F) : Event F → Option (Client F)
  | .ensureInitialized spawned inputs =>
      match c.conn, spawned, inputs with
      | some _, _, [] | none, false, [] => some c
      | none, true, inputs => c.shake cfg inputs
      | _, _, _ => none
  | .request method params inputs =>
      match c.conn with
      | none =>
          if inputs.isEmpty then
            some { c with
              log := c.log ++ [⟨method, params, .error ("mcp " ++ cfg.name ++ " not connected")⟩] }
          else none
      | some n =>
          match converse n inputs with
          | some (outcome, refused, []) =>
              some {
                -- the connection is given up if the time is over, and kept else
                conn := match outcome with
                  | .late => none
                  | _ => some (n + 1)
                asked := c.asked ++ [⟨n, method, params⟩]
                refused := c.refused ++ refused
                log := c.log ++ [⟨method, params, outcome⟩] }
          | _ => none

/-! ### What a request meets -/

/-- What is refused of what comes. -/
def Input.refused : Input F → Option (Value F)
  | .frame v => refusable v
  | _ => none

variable {id : ℤ} {inputs rest : List (Input F)} {refused : List (Value F)} {r : Value F}

/-- **What a request that has a result has read**: documents with other numbers, of which each request of the
server was refused, and in the end one with its own. -/
theorem awaitAnswer_result (h : awaitAnswer id inputs = some (.result r, refused, rest)) :
    ∃ read v, inputs = read ++ .frame v :: rest ∧ idOf v = some id ∧ answer v = .result r ∧
      (∀ w, .frame w ∈ read → idOf w ≠ some id) ∧ refused = read.filterMap Input.refused := by
  fun_induction awaitAnswer id inputs generalizing refused with
  | case1 => cases h
  | case2 v inputs hid =>
      obtain ⟨hanswer, hrefused, rfl⟩ := Prod.ext_iff.1 (Option.some.inj h) |>.imp_right Prod.ext_iff.1
      exact ⟨[], v, rfl, hid, hanswer, nofun, hrefused.symm⟩
  | case3 w inputs hid hrefusable ih =>
      obtain ⟨read, v, rfl, hv, hanswer, hothers, rfl⟩ := ih h
      refine ⟨.frame w :: read, v, rfl, hv, hanswer, ?_, ?_⟩
      · rintro u (_ | ⟨_, hu⟩)
        · exact hid
        · exact hothers u hu
      · exact (List.filterMap_cons_none (f := Input.refused) (a := .frame w) hrefusable).symm
  | case4 w hid theirs hrefusable inputs ih =>
      obtain ⟨⟨outcome, refused, rest⟩, hawait, heq⟩ := Option.map_eq_some_iff.1 h
      cases heq
      obtain ⟨read, v, rfl, hv, hanswer, hothers, rfl⟩ := ih hawait
      refine ⟨.frame w :: .sent :: read, v, rfl, hv, hanswer, ?_, ?_⟩
      · rintro u (_ | ⟨_, _ | ⟨_, hu⟩⟩)
        · exact hid
        · exact hothers u hu
      · rw [List.filterMap_cons_some (f := Input.refused) (a := .frame w) hrefusable]
        rfl
  | case5 | case6 | case7 | case8 => cases h
  | case9 input inputs hinput =>
      obtain ⟨outcome, hinterrupted, heq⟩ := Option.map_eq_some_iff.1 h
      cases heq
      cases input <;> cases hinterrupted

/-- **What a request that has a result has met**: it was sent, and its answer awaited. -/
theorem converse_result (h : converse id inputs = some (.result r, refused, rest)) :
    ∃ read v, inputs = .sent :: (read ++ .frame v :: rest) ∧ idOf v = some id ∧ answer v = .result r ∧
      (∀ w, .frame w ∈ read → idOf w ≠ some id) ∧ refused = read.filterMap Input.refused := by
  rw [converse.eq_def] at h
  split at h
  · obtain ⟨read, v, rfl, hrest⟩ := awaitAnswer_result h
    exact ⟨read, v, rfl, hrest⟩
  all_goals cases h

/-! ### An honest server -/

/-- **A document that an honest server may write** when this was asked.  What it answers a request with is what
it has to say to it; the numbers of its own requests are others. -/
structure Honest (reply : String → Option (Value F) → Value F) (asked : List (Question F)) (v : Value F) :
    Prop where
  answers : v.get "method" = none → ∀ id r, idOf v = some id → answer v = .result r →
    ∃ q ∈ asked, q.id = id ∧ r = reply q.method q.params
  apart : v.get "method" ≠ none → ∀ q ∈ asked, idOf v ≠ some q.id

/-- What was asked on the connection while an operation meets what it meets. -/
def Event.asked (cfg : Config F) (c : Client F) : Event F → List (Question F)
  | .ensureInitialized _ _ => [cfg.handshake]
  | .request method params _ =>
      match c.conn with
      | some n => c.asked ++ [⟨n, method, params⟩]
      | none => c.asked

/-- What an operation meets. -/
def Event.meets : Event F → List (Input F)
  | .ensureInitialized _ inputs | .request _ _ inputs => inputs

variable {cfg : Config F} {c d : Client F} {e : Event F} {es : List (Event F)}
  {reply : String → Option (Value F) → Value F}

/-- **The invariant of the client**: the numbers that were used on a connection are below the next one, and all
results so far are the answers to their requests. -/
structure Answered (reply : String → Option (Value F) → Value F) (c : Client F) : Prop where
  below : ∀ n, c.conn = some n → ∀ q ∈ c.asked, q.id < n
  answered : ∀ entry ∈ c.log, ∀ r, entry.outcome = .result r → r = reply entry.method entry.params

theorem shake_cases (h : c.shake cfg inputs = some d) :
    (d.conn = c.conn ∨ d.conn = some 2) ∧ d.asked = [cfg.handshake] ∧ d.log = c.log := by
  simp only [Client.shake] at h
  split at h
  · cases h
  · split at h <;> cases h
    · exact ⟨.inr rfl, rfl, rfl⟩
    all_goals exact ⟨.inl rfl, rfl, rfl⟩

theorem answered_step (hc : Answered reply c)
    (hhonest : ∀ v, .frame v ∈ e.meets → Honest reply (e.asked cfg c) v) (h : step cfg c e = some d) :
    Answered reply d := by
  cases e with
  | ensureInitialized spawned inputs =>
      simp only [step] at h
      split at h
      · cases h
        exact hc
      · cases h
        exact hc
      · rename_i hconn
        obtain ⟨hnext, hasked, hlog⟩ := shake_cases h
        refine ⟨fun n hn q hq => ?_, by rw [hlog]; exact hc.answered⟩
        rw [hasked] at hq
        obtain rfl := List.mem_singleton.1 hq
        rcases hnext with hnext | hnext
        · rw [hnext, hconn] at hn
          cases hn
        · rw [hnext] at hn
          cases hn
          change (1 : ℤ) < 2
          omega
      · cases h
  | request method params inputs =>
      simp only [step] at h
      split at h
      · rename_i hconn
        split at h
        · cases h
          refine ⟨hc.below, fun entry hentry r hr => ?_⟩
          rcases List.mem_append.1 hentry with hentry | hentry
          · exact hc.answered entry hentry r hr
          · obtain rfl := List.mem_singleton.1 hentry
            cases hr
        · cases h
      · rename_i n hconn
        split at h
        · rename_i outcome refused hconverse
          cases h
          constructor
          · intro m hm q hq
            obtain rfl : n + 1 = m := by
              cases outcome <;> cases hm <;> rfl
            rcases List.mem_append.1 hq with hq | hq
            · exact (hc.below n hconn q hq).trans (by omega)
            · obtain rfl := List.mem_singleton.1 hq
              exact Int.lt_succ n
          · intro entry hentry r hr
            rcases List.mem_append.1 hentry with hentry | hentry
            · exact hc.answered entry hentry r hr
            · obtain rfl := List.mem_singleton.1 hentry
              obtain rfl : outcome = .result r := hr
              obtain ⟨read, v, rfl, hv, hanswer, -, -⟩ := converse_result hconverse
              have hasked : (Event.request method params (.sent :: (read ++ [.frame v]))).asked cfg c =
                  c.asked ++ [⟨n, method, params⟩] := by
                simp only [Event.asked, hconn]
              have hwritten := hhonest v (by simp [Event.meets])
              rw [hasked] at hwritten
              -- a request of the server would have another number
              have hmethod : v.get "method" = none := by
                by_contra hmethod
                exact hwritten.apart hmethod ⟨n, method, params⟩ (by simp) hv
              obtain ⟨q, hq, hid, rfl⟩ := hwritten.answers hmethod n r hv hanswer
              -- no other request on the connection has its number
              rcases List.mem_append.1 hq with hq | hq
              · exact absurd hid (Int.ne_of_lt (hc.below n hconn q hq))
              · obtain rfl := List.mem_singleton.1 hq
                rfl
        · cases h

/-- **A result is the answer to its request**: whatever else an honest server writes, whatever fails or takes
too long, and however often the server is started again, no request is given the answer to another one. -/
theorem call_answered (h : Machine.exec (step cfg) {} es = some c)
    (hhonest : ∀ u e, Machine.Occurs (step cfg) {} es u e →
      ∀ v, .frame v ∈ e.meets → Honest reply (e.asked cfg u) v) :
    ∀ entry ∈ c.log, ∀ r, entry.outcome = .result r → r = reply entry.method entry.params := by
  have hstart : Answered reply {} := ⟨nofun, nofun⟩
  have hkept : Answered reply c := Machine.passes_induction (I := Answered reply)
    (fun u e v hoccurs hu hv => answered_step hu (hhonest u e hoccurs) hv) hstart ⟨es, List.prefix_refl es, h⟩
  exact hkept.answered

theorem mod_lt_word (n : ℕ) : n % 2 ^ 64 < 2 ^ 64 := Nat.mod_lt n (by decide)

/-- A number of 64 bits. -/
def word (n : ℕ) : Fin (2 ^ 64) := ⟨n % 2 ^ 64, mod_lt_word n⟩

/-- A document with a number. -/
def numbered (id : Fin (2 ^ 64)) (rest : List (String × Value Unit)) : Value Unit :=
  .object (("id", .number (.posInt id)) :: rest)

/-- The server is started, and asked for its tools; it requests something itself before it answers. -/
def listing : List (Event Unit) :=
  [.ensureInitialized true [.sent, .frame (numbered (word 1) [("result", .null)]), .sent],
    .request "tools/list" none
      [.sent, .frame (numbered (word 9001) [("method", .string "sampling/createMessage")]), .sent,
        .frame (numbered (word 2) [("result", .string "echo")])]]

/-- What the server has to say. -/
def echo (method : String) (_ : Option (Value Unit)) : Value Unit :=
  if method = "tools/list" then .string "echo" else .null

/-- What `echo` answers a request with. -/
theorem honest_numbered {asked : List (Question Unit)} {q : Question Unit} {id : Fin (2 ^ 64)}
    (hq : q ∈ asked) (hid : q.id = (id : ℕ)) (hsmall : (id : ℕ) < 2 ^ 63) :
    Honest echo asked (numbered id [("result", echo q.method q.params)]) := by
  constructor
  · intro hmethod i r hi hr
    have hidOf : idOf (numbered id [("result", echo q.method q.params)]) = some ((id : ℕ) : ℤ) := if_pos hsmall
    rw [hidOf] at hi
    cases hi
    cases hr
    exact ⟨q, hq, hid, rfl⟩
  · intro hmethod
    exact absurd rfl hmethod

theorem answered_listing : ∃ c, Machine.exec (step ⟨"home", .null⟩) {} listing = some c ∧
    ∀ entry ∈ c.log, ∀ r, entry.outcome = .result r → r = echo entry.method entry.params := by
  obtain ⟨c, hc⟩ : ∃ c, Machine.exec (step ⟨"home", .null⟩) {} listing = some c := ⟨_, rfl⟩
  refine ⟨c, hc, call_answered hc fun u e hoccurs v hv => ?_⟩
  obtain ⟨i, hi, hu⟩ := hoccurs.exists_getElem
  rcases i with _ | _ | i
  · cases hi
    cases hu
    simp only [Event.meets, List.mem_cons, List.not_mem_nil, reduceCtorEq, Input.frame.injEq, or_false,
      false_or] at hv
    subst hv
    exact honest_numbered List.mem_cons_self rfl (by decide)
  · cases hi
    cases hu
    simp only [Event.meets, List.mem_cons, List.not_mem_nil, reduceCtorEq, Input.frame.injEq, or_false,
      false_or] at hv
    rcases hv with rfl | rfl
    · -- a request of the server has another number than both of the client
      refine ⟨nofun, fun _ q hq => ?_⟩
      have hid : idOf (numbered (word 9001) [("method", .string "sampling/createMessage")]) = some 9001 := rfl
      rw [hid]
      rcases List.mem_append.1 hq with hq | hq
      · obtain rfl := List.mem_singleton.1 hq
        exact nofun
      · obtain rfl := List.mem_singleton.1 hq
        exact nofun
    · exact honest_numbered (List.mem_append_right _ List.mem_cons_self) rfl (by decide)
  · simp [listing] at hi

/-! ### A server that is gone -/

/-- What an operation meets at a connection to a server that is gone. -/
def Event.Gone : Event F → Prop
  | .ensureInitialized _ inputs => inputs = []
  | .request _ _ inputs => inputs = [.sent, .closed] ∨ ∃ e, inputs = [.failed e]

/-- **A server that is gone is not started again**: its connection is kept, so that nothing is initialized, and
every further request fails. -/
theorem closed_stays (hconn : c.conn ≠ none) (hgone : ∀ e ∈ es, e.Gone)
    (h : Machine.exec (step cfg) c es = some d) :
    d.conn ≠ none ∧ ∃ new, d.log = c.log ++ new ∧ ∀ entry ∈ new, ∃ message, entry.outcome = .error message := by
  induction es generalizing c with
  | nil =>
      cases h
      exact ⟨hconn, [], (List.append_nil _).symm, nofun⟩
  | cons e es ih =>
      rw [Machine.exec_cons] at h
      obtain ⟨u, hu, h⟩ := Option.bind_eq_some_iff.1 h
      obtain ⟨n, hn⟩ := Option.ne_none_iff_exists'.1 hconn
      have hrest : ∀ e ∈ es, e.Gone := fun e he => hgone e (List.mem_cons_of_mem _ he)
      have he := hgone e List.mem_cons_self
      cases e with
      | ensureInitialized spawned inputs =>
          obtain rfl : inputs = [] := he
          simp only [step, hn] at hu
          cases hu
          exact ih hconn hrest h
      | request method params inputs =>
          obtain ⟨message, hconverse⟩ : ∃ message, converse n inputs = some (.error message, [], []) := by
            rcases he with rfl | ⟨e, rfl⟩
            · exact ⟨_, rfl⟩
            · exact ⟨_, rfl⟩
          simp only [step, hn, hconverse] at hu
          cases hu
          obtain ⟨hlast, new, hlog, hnew⟩ := ih (Option.some_ne_none _) hrest h
          refine ⟨hlast, ⟨method, params, .error message⟩ :: new, ?_, ?_⟩
          · rw [hlog, List.append_assoc]
            rfl
          · rintro entry (_ | ⟨_, hentry⟩)
            · exact ⟨message, rfl⟩
            · exact hnew entry hentry

theorem stays_listing : ∃ d : Client Unit,
    Machine.exec (step ⟨"home", .null⟩) { conn := some 3 }
      [.request "tools/list" none [.sent, .closed], .ensureInitialized true []] = some d ∧
    d.conn ≠ none ∧ ∃ new, d.log = [] ++ new ∧ ∀ entry ∈ new, ∃ message, entry.outcome = .error message := by
  obtain ⟨d, hd⟩ : ∃ d : Client Unit, Machine.exec (step ⟨"home", .null⟩) { conn := some 3 }
    [.request "tools/list" none [.sent, .closed], .ensureInitialized true []] = some d := ⟨_, rfl⟩
  refine ⟨d, hd, closed_stays (Option.some_ne_none 3) ?_ hd⟩
  simp [Event.Gone]

end Mcp
