/-
**Who is let in.**

The routes of the web API that are behind `require_auth` (`crates/security/src/middleware.rs`) are
reached through three checks: the double-submit check of `csrf_middleware`
(`crates/web/src/server.rs`), the first-run check of `require_setup`, and the session check.  A session
comes from `setup_handler` or from `login_handler`, and ends with `logout_handler`, with
`reset_password_handler`, with the cleanup, or after a day (`crates/web/src/routes/mod.rs`).

A handler holds the lock of the database between two await points.  `login_handler` gives it up while
the password is verified, and a request for `reset_password_handler` gives it up between the session
check and the handler, so other handlers come in between.

Main definitions:

* `Web.Request`, `Web.sessionToken`, `Web.csrfPasses`, `Web.serve` — a request to a protected route;
* `Web.Event`, `Web.step` — the handlers that write the tables;
* `Web.Grants`, `Web.Revokes` — an event creates a session, and takes one away.

Main results:

* `Web.served_to_holder` — **a protected route is served exactly to who holds a session that was granted less
  than a day ago and not revoked since**;
* `Web.setup_once` — **there is one setup**;
* `Web.granted_iff` — **a session is granted exactly for the first setup, and for a password that has the
  hash that was stored when its login began**.
-/

import MibeeEye.LoginLockout
import MibeeEye.PasswordReset
import MibeeEye.SessionCleanup

set_option relaxedAutoImplicit false
set_option autoImplicit false

namespace Web

open Auth (Database Fault Query Session)

/-! ### A request -/

/-- `axum::http::Method` -/
inductive Method
  | get
  | head
  | options
  | post
  | put
  | delete
  | patch
  | other (name : String)
  deriving DecidableEq, Repr

/-- The parts of a request that the checks look at; a header that is no text counts as missing. -/
structure Request where
  method : Method
  cookie : Option (List Char)
  csrfToken : Option (List Char)
  deriving DecidableEq, Repr

/-- `extract_session_token` -/
def sessionToken (req : Request) : Option String :=
  req.cookie.bind fun cookies =>
    ((cookies.splitOn ';').findSome? fun c =>
      (Text.trim c).dropPrefix? "session=".toList).map String.ofList

/-- A method that changes something. -/
def Method.isStateChanging : Method → Bool
  | .post | .put | .delete | .patch => true
  | .get | .head | .options | .other _ => false

/-- The token in the cookie that begins with `csrf-token=`. -/
def cookieCsrf (req : Request) : Option (List Char) :=
  req.cookie.bind fun cookies =>
    (((cookies.splitOn ';').map Text.trim).find? fun c => "csrf-token=".toList.isPrefixOf c).map
      (Text.trimStartMatches "csrf-token=".toList)

/-- `csrf_middleware` lets a request to a protected route pass. -/
def csrfPasses (req : Request) : Bool :=
  !req.method.isStateChanging ||
    match cookieCsrf req with
    | some expected => req.csrfToken == some expected
    | none => false

/-- What becomes of a request. -/
inductive Reply
  | served (userId : String)
  | refused (status : ℕ) (message : String)
  deriving DecidableEq, Repr

/-- The faults of the statements of a request: the count of the users, and the session. -/
structure RequestFaults where
  firstRun : Fault := none
  session : Query := {}
  deriving DecidableEq, Repr

/-- `is_first_run`, of tables that were created. -/
def isFirstRun (fault : Fault) (db : Database) : Except Auth.AnyError Bool :=
  Auth.execute none fault (decide (db.users.rows.length = 0))

/-- `require_auth` -/
def requireAuth (query : Query) (db : Database) (req : Request) (now : ℕ) : Reply :=
  match sessionToken req with
  | none => .refused 401 "unauthorized"
  | some token =>
      match Auth.validateSession query db token now with
      | .ok (some userId) => .served userId
      | .ok none => .refused 401 "unauthorized"
      | .error _ => .refused 500 "internal error"

/-- A request to a protected route: `csrf_middleware`, `require_setup`, `require_auth`.  The last two
each take the lock, and find the tables as they are then. -/
def serve (faults : RequestFaults) (atSetup atAuth : Database) (req : Request) (now : ℕ) : Reply :=
  if csrfPasses req then
    match isFirstRun faults.firstRun atSetup with
    | .ok true => .refused 503 "Initial setup required"
    | .ok false => requireAuth faults.session atAuth req now
    | .error _ => .refused 500 "internal error"
  else .refused 400 "CSRF token missing or invalid"

/-! ### The handlers that write the tables -/

/-- A session that was created: its token, its user, and when. -/
structure Grant where
  token : String
  userId : String
  since : ℕ
  deriving DecidableEq, Repr

/-- The session that a call of `create_session` returns the token of, and the tables. -/
def recordGrant (userId : String) (now : ℕ) (db : Database) :
    Checked.Run Auth.AnyError (String × Database) → Option Grant × Database
  | .ok (token, db) => (some ⟨token, userId, now⟩, db)
  | .error _ => (none, db)

/-- A session is created, unless that fails. -/
def grantSession (fault : Fault) (db : Database) (token userId : String) (now : ℕ) :
    Option Grant × Database :=
  recordGrant userId now db (Auth.createSession fault db token userId now)

/-- What happens around a call of `setup_handler`: the hash that is made, what `datetime('now')` is, and
the faults of its statements. -/
structure SetupEnv where
  hash : Except String String
  stamp : String
  firstRun : Fault := none
  init : Fault := none
  insert : Fault := none
  session : Fault := none

/-- `setup_handler`, as far as the tables go. -/
@[grind =] def setup (env : SetupEnv) (db : Database) (username password token : String) (now : ℕ) :
    Option Grant × Database :=
  if Text.trim username.toList = [] ∨ password.utf8ByteSize < 8 then (none, db)
  else match isFirstRun env.firstRun db, env.init, env.hash, env.insert with
    | .ok true, none, .ok hash, none =>
        if h : username ∉ db.users.rows.map Auth.User.username then
          grantSession env.session
            { db with users := db.users.insert ⟨username, hash, env.stamp, env.stamp⟩ h }
            token username now
        else (none, db)
    | _, _, _, _ => (none, db)

/-- `login_handler` behind its second await point: the password has been verified, or not. -/
def finishLogin (verify : String → String → Except String Bool) (fault : Fault) (db : Database)
    (username password hash token : String) (now : ℕ) : Option Grant × Database :=
  match verify password hash with
  | .ok true => grantSession fault db token username now
  | .ok false | .error _ => (none, db)

/-- `logout_handler`, with `invalidate_session`. -/
def logout (fault : Fault) (db : Database) (req : Request) : Database :=
  match sessionToken req with
  | some token =>
      match fault with
      | none => { db with sessions := db.sessions.filter fun row => !decide (row.token = token) }
      | some _ => db
  | none => db

/-- What a handler goes on with when it has the lock again. -/
inductive Task
  /-- The password of a login is being verified against the hash that was stored. -/
  | login (username password hash : String)
  /-- A reset was let in for its user. -/
  | reset (userId : String)
  deriving DecidableEq, Repr

/-- The tables, and the handlers that do not have the lock. -/
structure Site where
  db : Database := Auth.blank
  tasks : ℕ → Option Task := fun _ => none

/-- The handlers that write the tables, from one await point to the next. -/
inductive Event
  | setup (env : SetupEnv) (username password token : String) (now : ℕ)
  /-- `login_handler` up to the verification, of a username that is not locked out. -/
  | login (n : ℕ) (username password : String) (query : Query)
  /-- Task `n`, a login, has its verdict. -/
  | verified (n : ℕ) (fault : Fault) (token : String) (now : ℕ)
  | logout (fault : Fault) (req : Request)
  /-- The session check of a request for `reset_password_handler`. -/
  | letIn (n : ℕ) (query : Query) (req : Request) (now : ℕ)
  /-- Task `n`, a reset, goes on. -/
  | reset (n : ℕ) (oldPassword newPassword stamp : String) (hash : String → Except String String)
      (select : Query) (update delete : Fault)
  | cleanup (fault : Fault) (now : ℕ)

variable (verify : String → String → Except String Bool)

/-- `reset_password`, with the verification of all calls. -/
def resetTask (db : Database) (userId oldPassword newPassword stamp : String)
    (hash : String → Except String String) (select : Query) (update delete : Fault) :
    Except Auth.AuthError Unit × Database :=
  Auth.resetPassword ⟨verify, hash, stamp, select, update, delete⟩ db userId oldPassword newPassword

/-- One step. -/
@[grind =] def step (s : Site) : Event → Option Site
  | .setup env username password token now =>
      some { s with db := (setup env s.db username password token now).2 }
  | .login n username password query =>
      match s.tasks n with
      | some _ => none
      | none =>
          match Auth.getUserPassword query s.db (Login.resolve username) with
          | .ok (some hash) => some { s with
              tasks := Function.update s.tasks n (some (.login (Login.resolve username) password hash)) }
          | .ok none | .error _ => some s
  | .verified n fault token now =>
      match s.tasks n with
      | some (.login username password hash) => some
          { db := (finishLogin verify fault s.db username password hash token now).2
            tasks := Function.update s.tasks n none }
      | some (.reset _) | none => none
  | .logout fault req => some { s with db := logout fault s.db req }
  | .letIn n query req now =>
      match s.tasks n with
      | some _ => none
      | none =>
          match requireAuth query s.db req now with
          | .served userId => some { s with
              tasks := Function.update s.tasks n (some (.reset userId)) }
          | .refused _ _ => some s
  | .reset n oldPassword newPassword stamp hash select update delete =>
      match s.tasks n with
      | some (.reset userId) => some
          { db := (resetTask verify s.db userId oldPassword newPassword stamp hash select update
              delete).2
            tasks := Function.update s.tasks n none }
      | some (.login _ _ _) | none => none
  | .cleanup fault now => some { s with db := (Auth.cleanupExpiredSessions fault s.db now).2 }

/-! ### What an event does to the sessions -/

/-- The event creates this session. -/
def Grants (s : Site) (g : Grant) : Event → Prop
  | .setup env username password token now => (setup env s.db username password token now).1 = some g
  | .verified n fault token now => ∃ username password hash,
      s.tasks n = some (.login username password hash) ∧
      (finishLogin verify fault s.db username password hash token now).1 = some g
  | .login _ _ _ _ | .logout _ _ | .letIn _ _ _ _ | .reset _ _ _ _ _ _ _ _ | .cleanup _ _ => False

/-- The event takes this session away: its user logs out with its token, the password of its user is
reset, or the cleanup finds the text of its expiry before that of the time. -/
def Revokes (s : Site) (g : Grant) : Event → Prop
  | .logout fault req => fault = none ∧ sessionToken req = some g.token
  | .reset n oldPassword newPassword stamp hash select update delete =>
      s.tasks n = some (.reset g.userId) ∧
      (resetTask verify s.db g.userId oldPassword newPassword stamp hash select update delete).1 = .ok ()
  | .cleanup fault now =>
      fault = none ∧ Nat.toDigits 10 (g.since + Auth.sessionTtlSecs) < Nat.toDigits 10 now
  | .setup _ _ _ _ _ | .login _ _ _ _ | .verified _ _ _ _ | .letIn _ _ _ _ => False

/-- The session is in the table. -/
def Held (g : Grant) (s : Site) : Prop :=
  s.db.sessions.find? g.token = some (Auth.newSession g.token g.userId g.since)

/-! ### One event -/

variable {verify} {fault : Fault} {db : Database} {token userId : String} {now : ℕ} {g : Grant}
  {s t : Site} {e : Event}

/-- A session is told by its token, its user and its time. -/
theorem newSession_inj {token' userId' : String} {n m : ℕ} :
    Auth.newSession token userId n = Auth.newSession token' userId' m ↔
      token = token' ∧ userId = userId' ∧ n = m := by
  constructor
  · intro h
    have hdigits : Nat.toDigits 10 n = Nat.toDigits 10 m := congrArg Session.createdAt h
    refine ⟨congrArg Session.token h, congrArg Session.userId h, ?_⟩
    rw [← Decimal.value_toDigits n, ← Decimal.value_toDigits m, hdigits]
  · rintro ⟨rfl, rfl, rfl⟩
    rfl

/-- The INSERT of a session can be carried out: its token is not taken, and the time can be counted on
from. -/
structure Insertable (fault : Fault) (db : Database) (token : String) (now : ℕ) : Prop where
  works : fault = none
  free : token ∉ db.sessions.rows.map Session.token
  bound : now + Auth.sessionTtlSecs < 2 ^ 64

/-- The token of a session that can be inserted is not taken. -/
theorem Insertable.newSession_not_mem (h : Insertable fault db token now) (userId : String) :
    (Auth.newSession token userId now).token ∉ db.sessions.rows.map Session.token := h.free

/-- A session that can be inserted is created. -/
theorem createSession_of_insertable (h : Insertable fault db token now) :
    Auth.createSession fault db token userId now = .ok (token, { db with
      sessions := db.sessions.insert (Auth.newSession token userId now)
        (h.newSession_not_mem userId) }) := by
  obtain ⟨rfl, hfree, hbound⟩ := h
  rw [Auth.createSession, if_pos hbound, Auth.execute_none, Checked.ok_bind, dif_pos hfree]
  rfl

/-- A session that was created could be inserted. -/
theorem insertable_of_createSession {result : String × Database}
    (h : Auth.createSession fault db token userId now = .ok result) : Insertable fault db token now := by
  have hworks : fault = none := by
    cases fault with
    | none => rfl
    | some message =>
        rw [Auth.createSession] at h
        split at h <;> cases h
  obtain ⟨hbound, hfree, -⟩ := Auth.of_createSession h
  exact ⟨hworks, hfree, hbound⟩

/-- **What the creation of a session does**, to the tables too. -/
theorem grantSession_cases (fault : Fault) (db : Database) (token userId : String) (now : ℕ) :
    (∃ h : Insertable fault db token now, grantSession fault db token userId now =
      (some ⟨token, userId, now⟩, { db with
        sessions := db.sessions.insert (Auth.newSession token userId now)
          (h.newSession_not_mem userId) })) ∨
    (¬ Insertable fault db token now ∧ grantSession fault db token userId now = (none, db)) := by
  by_cases h : Insertable fault db token now
  · refine Or.inl ⟨h, ?_⟩
    rw [grantSession, createSession_of_insertable h, recordGrant]
  · refine Or.inr ⟨h, ?_⟩
    rw [grantSession]
    cases hcall : Auth.createSession fault db token userId now with
    | error e => rw [recordGrant]
    | ok result => exact absurd (insertable_of_createSession hcall) h

/-- **The sessions after one was created**, or after that failed. -/
theorem find?_grantSession :
    (grantSession fault db token userId now).2.sessions.find? g.token =
        some (Auth.newSession g.token g.userId g.since) ↔
      (grantSession fault db token userId now).1 = some g ∨
        db.sessions.find? g.token = some (Auth.newSession g.token g.userId g.since) := by
  rcases grantSession_cases fault db token userId now with ⟨h, hcall⟩ | ⟨-, hcall⟩
  · obtain ⟨gtoken, guser, gsince⟩ := g
    simp only [hcall, Keyed.Table.find?_insert, Option.some.injEq, Grant.mk.injEq]
    have hkey : (Auth.newSession token userId now).token = token := rfl
    rw [hkey]
    split
    · rename_i htoken
      subst htoken
      have hnone : db.sessions.find? token = none := Keyed.Table.find?_eq_none_iff.2 h.free
      simp [hnone, newSession_inj]
    · rename_i htoken
      simp [htoken]
  · simp [hcall]

/-- What a reset does to the sessions. -/
theorem sessions_resetTask {oldPassword newPassword stamp : String}
    {hash : String → Except String String} {select : Query} {update delete : Fault} :
    ((resetTask verify db userId oldPassword newPassword stamp hash select update delete).1 = .ok () ∧
        (resetTask verify db userId oldPassword newPassword stamp hash select update delete).2.sessions =
          db.sessions.filter fun row => !decide (row.userId = userId)) ∨
      ((resetTask verify db userId oldPassword newPassword stamp hash select update delete).1 ≠ .ok () ∧
        (resetTask verify db userId oldPassword newPassword stamp hash select update delete).2.sessions =
          db.sessions) := by
  by_cases h : ∃ stored new, Auth.Reaches ⟨verify, hash, stamp, select, update, delete⟩ db userId
      oldPassword newPassword stored new
  · obtain ⟨stored, new, h⟩ := h
    rw [resetTask, Auth.resetPassword_of_reaches h]
    cases delete with
    | none => exact Or.inl ⟨rfl, rfl⟩
    | some message => exact Or.inr ⟨by simp, rfl⟩
  · simp only [not_exists] at h
    obtain ⟨e, hcall⟩ := Auth.resetPassword_of_not_reaches h
    rw [resetTask, hcall]
    exact Or.inr ⟨by simp, rfl⟩

/-- A setup does to the sessions what the creation of its session does. -/
theorem find?_setup {env : SetupEnv} {username password : String} :
    (setup env db username password token now).2.sessions.find? g.token =
        some (Auth.newSession g.token g.userId g.since) ↔
      (setup env db username password token now).1 = some g ∨
        db.sessions.find? g.token = some (Auth.newSession g.token g.userId g.since) := by
  unfold setup
  split
  · simp
  · split
    · split
      · exact find?_grantSession
      · simp
    · simp

/-- A login does to the sessions what the creation of its session does. -/
theorem find?_finishLogin {username password hash : String} :
    (finishLogin verify fault db username password hash token now).2.sessions.find? g.token =
        some (Auth.newSession g.token g.userId g.since) ↔
      (finishLogin verify fault db username password hash token now).1 = some g ∨
        db.sessions.find? g.token = some (Auth.newSession g.token g.userId g.since) := by
  have hnone : ∀ p : Prop, p ↔ (none : Option Grant) = some g ∨ p := by simp
  unfold finishLogin
  split
  · exact find?_grantSession
  · exact hnone _
  · exact hnone _

/-- **What an event does to a session**: it is created, or it stays unless it is revoked. -/
theorem held_step (h : step verify s e = some t) :
    Held g t ↔ Grants verify s g e ∨ Held g s ∧ ¬ Revokes verify s g e := by
  cases e with
  | setup env username password token now =>
      cases h
      simp only [Held, find?_setup, Grants, Revokes, not_false_eq_true, and_true]
  | login n username password query =>
      rw [step] at h
      split at h
      · cases h
      · split at h <;> cases h <;> simp [Held, Grants, Revokes]
  | verified n fault token now =>
      rw [step] at h
      split at h
      · rename_i username password hash htask
        cases h
        have hgrants : Grants verify s g (.verified n fault token now) ↔
            (finishLogin verify fault s.db username password hash token now).1 = some g := by
          constructor
          · rintro ⟨u, p, k, hother, hg⟩
            rw [htask] at hother
            cases hother
            exact hg
          · exact fun hg => ⟨username, password, hash, htask, hg⟩
        simp only [hgrants, Held, Revokes, not_false_eq_true, and_true]
        exact find?_finishLogin
      · cases h
      · cases h
  | logout fault req =>
      cases h
      rw [Held, Held, Grants, Revokes, false_or, logout]
      cases htoken : sessionToken req with
      | none => simp
      | some token =>
          cases fault with
          | some message => simp
          | none =>
              have hkeeps : (!decide ((Auth.newSession g.token g.userId g.since).token = token)) = true ↔
                  token ≠ g.token := by
                rw [Bool.not_eq_true', decide_eq_false_iff_not, ne_comm]
                rfl
              simp only [Keyed.Table.find?_filter, Option.filter_eq_some_iff, hkeeps, ne_eq,
                true_and, Option.some.injEq]
  | letIn n query req now =>
      rw [step] at h
      split at h
      · cases h
      · split at h <;> cases h <;> simp [Held, Grants, Revokes]
  | reset n oldPassword newPassword stamp hash select update delete =>
      rw [step] at h
      split at h
      · rename_i userId htask
        cases h
        simp only [Held, Grants, Revokes, false_or, htask, Option.some.injEq, Task.reset.injEq]
        rcases @sessions_resetTask verify s.db userId oldPassword newPassword stamp hash select update
          delete with ⟨hok, hrows⟩ | ⟨hfail, hrows⟩
        · rw [hrows, Keyed.Table.find?_filter, Option.filter_eq_some_iff]
          have hkeeps : (!decide ((Auth.newSession g.token g.userId g.since).userId = userId)) = true ↔
              userId ≠ g.userId := by
            rw [Bool.not_eq_true', decide_eq_false_iff_not, ne_comm]
            rfl
          rw [hkeeps]
          refine and_congr_right fun _ => ?_
          constructor
          · exact fun hne hrevoked => hne hrevoked.1
          · rintro hnot rfl
            exact hnot ⟨rfl, hok⟩
        · rw [hrows]
          refine (and_iff_left ?_).symm
          rintro ⟨rfl, hok⟩
          exact hfail hok
      · cases h
      · cases h
  | cleanup fault now =>
      cases h
      rw [Held, Held, Grants, Revokes, false_or, Auth.cleanupExpiredSessions]
      cases fault with
      | some message => simp [Auth.deleteSessions]
      | none =>
          simp only [Auth.deleteSessions, Keyed.Table.find?_filter, Option.filter_eq_some_iff,
            Auth.newSession, true_and, Bool.not_eq_true', decide_eq_false_iff_not]

/-! ### The tables along a run -/

/-- A session is stored as it was created. -/
theorem stored_grantSession (h : Auth.Stored db) :
    Auth.Stored (grantSession fault db token userId now).2 := by
  rcases grantSession_cases fault db token userId now with ⟨hinsert, hcall⟩ | ⟨-, hcall⟩
  · rw [hcall]
    intro row hrow
    have hrow : row ∈ (db.sessions.insert _ (hinsert.newSession_not_mem userId)).rows := hrow
    rcases Keyed.Table.mem_insert.1 hrow with hold | rfl
    · exact h row hold
    · exact ⟨now, hinsert.bound, rfl⟩
  · rwa [hcall]

/-- What is left of some sessions is stored as they were. -/
theorem stored_filter (h : Auth.Stored db) {db' : Database} {p : Session → Bool}
    (hrows : db'.sessions = db.sessions.filter p) : Auth.Stored db' := by
  intro row hrow
  rw [hrows] at hrow
  exact h row (Keyed.Table.mem_filter.1 hrow).1

theorem stored_setup {env : SetupEnv} {username password : String} (h : Auth.Stored db) :
    Auth.Stored (setup env db username password token now).2 := by
  unfold setup
  split
  · exact h
  · split
    · split
      · exact stored_grantSession h
      · exact h
    · exact h

/-- **Every session is stored as it was created**, in whatever order the handlers get the lock. -/
theorem stored_step (hs : Auth.Stored s.db) (h : step verify s e = some t) : Auth.Stored t.db := by
  cases e with
  | setup env username password token now =>
      cases h
      exact stored_setup hs
  | login n username password query =>
      rw [step] at h
      split at h
      · cases h
      · split at h <;> cases h <;> exact hs
  | verified n fault token now =>
      rw [step] at h
      split at h
      · cases h
        simp only [finishLogin]
        split
        · exact stored_grantSession hs
        · exact hs
        · exact hs
      · cases h
      · cases h
  | logout fault req =>
      cases h
      simp only [logout]
      split
      · split
        · exact stored_filter hs rfl
        · exact hs
      · exact hs
  | letIn n query req now =>
      rw [step] at h
      split at h
      · cases h
      · split at h <;> cases h <;> exact hs
  | reset n oldPassword newPassword stamp hash select update delete =>
      rw [step] at h
      split at h
      · cases h
        rcases sessions_resetTask with ⟨-, hrows⟩ | ⟨-, hrows⟩
        · exact stored_filter hs hrows
        · intro row hrow
          rw [hrows] at hrow
          exact hs row hrow
      · cases h
      · cases h
  | cleanup fault now =>
      cases h
      exact Auth.Stored.cleanup hs

variable {es : List Event}

theorem stored_exec (h : Machine.exec (step verify) {} es = some s) : Auth.Stored s.db :=
  Machine.exec_invariant (P := fun _ => True) (fun _ _ _ _ hs h => stored_step hs h)
    (fun _ _ => trivial) (fun _ hrow => absurd hrow List.not_mem_nil) h

/-- **The sessions of the table** after a run: those that were created and not taken away since. -/
theorem held_iff (h : Machine.exec (step verify) {} es = some s) :
    Held g s ↔ Machine.Since (step verify) (fun s e => Grants verify s g e)
      (fun s e => Revokes verify s g e) {} es :=
  Machine.since_iff (fun _ _ _ h => held_step h) (by simp [Held, Auth.blank, Keyed.Table.find?, Keyed.Table.empty]) h

/-! ### A request -/

/-- What is found for the token of a session. -/
theorem validateSession_of_parses {row : Session} {e : ℕ} (hrow : db.sessions.find? token = some row)
    (hparses : Auth.parseU64 row.expiresAt = .ok e) :
    Auth.validateSession {} db token now = .ok (if now < e then some row.userId else none) := by
  rw [Auth.validateSession]
  simp only [Auth.execute_none, Checked.ok_bind, hrow, hparses, Except.mapError, pure, Except.pure]

/-- What is found for a token that is stored. -/
theorem validateSession_of_find? {since : ℕ}
    (hrow : db.sessions.find? token = some (Auth.newSession token userId since))
    (hbound : since + Auth.sessionTtlSecs < 2 ^ 64) :
    Auth.validateSession {} db token now =
      .ok (if now < since + Auth.sessionTtlSecs then some userId else none) :=
  validateSession_of_parses hrow (Auth.parseU64_toDigits hbound)

/-- A session that was stored is accepted for a day. -/
theorem validateSession_iff {query : Query} (hs : Auth.Stored db) :
    Auth.validateSession query db token now = .ok (some userId) ↔
      query = {} ∧ ∃ since, now < since + Auth.sessionTtlSecs ∧
        db.sessions.find? token = some (Auth.newSession token userId since) := by
  have hstored : ∀ row, db.sessions.find? token = some row →
      ∃ since, since + Auth.sessionTtlSecs < 2 ^ 64 ∧ row = Auth.newSession token row.userId since := by
    intro row hrow
    obtain ⟨hmem, htoken⟩ := Keyed.Table.find?_eq_some_iff.1 hrow
    obtain ⟨since, hbound, hnew⟩ := hs row hmem
    exact ⟨since, hbound, htoken ▸ hnew⟩
  constructor
  · intro h
    obtain ⟨prepare, read⟩ := query
    cases prepare with
    | some message => cases h
    | none =>
        cases read with
        | some message => cases h
        | none =>
            refine ⟨rfl, ?_⟩
            cases hrow : db.sessions.find? token with
            | none =>
                rw [Auth.validateSession, hrow] at h
                cases h
            | some row =>
                obtain ⟨since, hbound, hnew⟩ := hstored row hrow
                rw [hnew] at hrow
                rw [validateSession_of_find? hrow hbound] at h
                split at h
                · rename_i hlt
                  cases h
                  exact ⟨since, hlt, by rw [← hnew]⟩
                · cases h
  · rintro ⟨rfl, since, hlt, hrow⟩
    obtain ⟨since', hbound, hnew⟩ := hstored _ hrow
    obtain ⟨-, -, rfl⟩ := newSession_inj.1 hnew
    rw [validateSession_of_find? hrow hbound, if_pos hlt]

/-- **Who the session check lets in**: who holds a session of the table for less than a day. -/
theorem requireAuth_iff {query : Query} {req : Request} (hs : Auth.Stored db) :
    requireAuth query db req now = .served userId ↔
      query = {} ∧ ∃ g : Grant, sessionToken req = some g.token ∧ g.userId = userId ∧
        now < g.since + Auth.sessionTtlSecs ∧
        db.sessions.find? g.token = some (Auth.newSession g.token g.userId g.since) := by
  rw [requireAuth]
  cases htoken : sessionToken req with
  | none => simp
  | some token =>
      have hserved : (match Auth.validateSession query db token now with
          | .ok (some userId) => Reply.served userId
          | .ok none => .refused 401 "unauthorized"
          | .error _ => .refused 500 "internal error") = .served userId ↔
          Auth.validateSession query db token now = .ok (some userId) := by
        split <;> simp_all
      rw [hserved, validateSession_iff hs]
      refine and_congr_right fun _ => ?_
      constructor
      · rintro ⟨since, hlt, hrow⟩
        exact ⟨⟨token, userId, since⟩, rfl, rfl, hlt, hrow⟩
      · rintro ⟨⟨_, _, since⟩, htoken, rfl, hlt, hrow⟩
        cases htoken
        exact ⟨since, hlt, hrow⟩

variable {faults : RequestFaults} {req : Request} {atSetup : Database}

/-- What a request that is served has passed. -/
theorem serve_iff (hs : Auth.Stored db) :
    serve faults atSetup db req now = .served userId ↔
      csrfPasses req = true ∧ faults.firstRun = none ∧ faults.session = {} ∧
        atSetup.users.rows ≠ [] ∧
        ∃ g : Grant, sessionToken req = some g.token ∧ g.userId = userId ∧
          now < g.since + Auth.sessionTtlSecs ∧
          db.sessions.find? g.token = some (Auth.newSession g.token g.userId g.since) := by
  unfold serve
  cases hcsrf : csrfPasses req with
  | false => simp
  | true =>
      rw [if_pos rfl, and_iff_right rfl]
      cases hfault : faults.firstRun with
      | some message => simp [isFirstRun, Auth.execute]
      | none =>
          rw [isFirstRun, Auth.execute_none, and_iff_right rfl]
          by_cases hnew : atSetup.users.rows = []
          · simp [hnew]
          · simp [hnew, requireAuth_iff hs]

/-- A hash that is the password itself. -/
def plainSetup : Event :=
  .setup ⟨.ok "pass-word", "2026-01-01 00:00:00", none, none, none, none⟩ "admin" "pass-word" "t" 9

/-- The verification of such a hash. -/
def plainVerify (password hash : String) : Except String Bool := .ok (password == hash)

/-- The cookies of a browser that is logged in. -/
def loggedIn : Request := ⟨.get, some "lang=en; session=t".toList, none⟩

/-- What follows the setup of a device: a login, and a logout while the password is verified. -/
def firstDay : List Event := [plainSetup, .login 0 "" "pass-word" {}, .logout none loggedIn]

variable (verify) in
/-- **A request to a protected route is served exactly to who holds a session** that was granted less than
a day ago and has not been revoked since, whatever the other handlers do in between. -/
theorem served_to_holder {es₁ es₂ : List Event} {s₁ s₂ : Site}
    (h₁ : Machine.exec (step verify) {} es₁ = some s₁)
    (h₂ : Machine.exec (step verify) s₁ es₂ = some s₂) (faults : RequestFaults) (req : Request)
    (now : ℕ) (userId : String) :
    serve faults s₁.db s₂.db req now = .served userId ↔
      csrfPasses req = true ∧ faults.firstRun = none ∧ faults.session = {} ∧
        s₁.db.users.rows ≠ [] ∧
        ∃ g : Grant, sessionToken req = some g.token ∧ g.userId = userId ∧
          now < g.since + Auth.sessionTtlSecs ∧
          Machine.Since (step verify) (fun s e => Grants verify s g e)
            (fun s e => Revokes verify s g e) {} (es₁ ++ es₂) := by
  have h : Machine.exec (step verify) {} (es₁ ++ es₂) = some s₂ := by
    rw [Machine.exec_append, h₁, Option.bind_some, h₂]
  rw [serve_iff (stored_exec h)]
  simp only [← held_iff h, Held]

/-- The session of the setup is good for the next day. -/
theorem served_setUp : ∃ s, Machine.exec (step plainVerify) {} [plainSetup] = some s ∧
    serve {} s.db s.db loggedIn 10 = .served "admin" := by
  refine ⟨_, rfl, ?_⟩
  refine (@served_to_holder plainVerify [plainSetup] [] _ _ rfl rfl {} loggedIn 10 "admin").2
    ⟨rfl, rfl, rfl, List.cons_ne_nil _ _, ⟨"t", "admin", 9⟩, by decide, rfl, by decide, ?_⟩
  exact @Machine.since_of_starts Site Event (step plainVerify) _ _ {} {} [] plainSetup _ rfl rfl rfl

/-! ### How a session is come by -/

/-- Task `n` begins as a login that read this hash. -/
def Begins (n : ℕ) (userId password hash : String) (s : Site) : Event → Prop
  | .login m username password' query => m = n ∧ s.tasks n = none ∧ Login.resolve username = userId ∧
      password' = password ∧ query = {} ∧ Auth.storedHash s.db userId = some hash
  | _ => False

/-- Task `n` has its verdict. -/
def Finishes (n : ℕ) : Event → Prop
  | .verified m _ _ _ => m = n
  | _ => False

/-- A SELECT of a hash that finds one. -/
theorem getUserPassword_iff {query : Query} {username hash : String} :
    Auth.getUserPassword query db username = .ok (some hash) ↔
      query = {} ∧ Auth.storedHash db username = some hash := by
  obtain ⟨prepare, read⟩ := query
  cases prepare with
  | some message => simp [Auth.getUserPassword, Auth.execute, bind, Except.bind]
  | none =>
      cases read with
      | some message => simp [Auth.getUserPassword, Auth.execute, bind, Except.bind]
      | none =>
          simp [Auth.getUserPassword, Auth.execute, bind, Except.bind, Auth.storedHash, pure,
            Except.pure]

/-- **What an event does to a login that is being verified.** -/
theorem task_step {n : ℕ} {password hash : String} (h : step verify s e = some t) :
    t.tasks n = some (.login userId password hash) ↔
      Begins n userId password hash s e ∨
        s.tasks n = some (.login userId password hash) ∧ ¬ Finishes n e := by
  cases e with
  | setup env username password token now =>
      cases h
      simp [Begins, Finishes]
  | login m username password' query =>
      rw [step] at h
      split at h
      · cases h
      · rename_i hfree
        have hbegins : Begins n userId password hash s (.login m username password' query) ↔
            m = n ∧ Login.resolve username = userId ∧ password' = password ∧
              Auth.getUserPassword query s.db (Login.resolve username) = .ok (some hash) := by
          rw [Begins, getUserPassword_iff]
          constructor
          · rintro ⟨rfl, -, rfl, rfl, rfl, hstored⟩
            exact ⟨rfl, rfl, rfl, rfl, hstored⟩
          · rintro ⟨rfl, rfl, rfl, rfl, hstored⟩
            exact ⟨rfl, hfree, rfl, rfl, rfl, hstored⟩
        rw [hbegins]
        split at h
        · rename_i hash' hfound
          cases h
          simp only [hfound, Finishes, not_false_eq_true, and_true]
          by_cases hn : n = m
          · subst hn
            simp [hfree]
          · simp [Function.update_of_ne hn, Ne.symm hn]
        · rename_i hfound
          cases h
          simp [hfound, Finishes]
        · rename_i hfound
          cases h
          simp [hfound, Finishes]
  | verified m fault token now =>
      rw [step] at h
      split at h
      · cases h
        simp only [Begins, Finishes, false_or]
        by_cases hn : n = m
        · subst hn
          simp
        · simp [Function.update_of_ne hn, Ne.symm hn]
      · cases h
      · cases h
  | logout fault req =>
      cases h
      simp [Begins, Finishes]
  | letIn m query req now =>
      rw [step] at h
      simp only [Begins, Finishes, false_or, not_false_eq_true, and_true]
      split at h
      · cases h
      · rename_i hfree
        split at h
        · cases h
          by_cases hn : n = m
          · subst hn
            simp [hfree]
          · simp [Function.update_of_ne hn]
        · cases h
          exact Iff.rfl
  | reset m oldPassword newPassword stamp hash' select update delete =>
      rw [step] at h
      simp only [Begins, Finishes, false_or, not_false_eq_true, and_true]
      split at h
      · rename_i htask
        cases h
        by_cases hn : n = m
        · subst hn
          simp [htask]
        · simp [Function.update_of_ne hn]
      · cases h
      · cases h
  | cleanup fault now =>
      cases h
      simp [Begins, Finishes]

/-- A session is created if it can be inserted. -/
theorem grantSession_iff : (grantSession fault db token userId now).1 = some g ↔
    Insertable fault db token now ∧ g = ⟨token, userId, now⟩ := by
  rcases grantSession_cases fault db token userId now with ⟨h, hcall⟩ | ⟨h, hcall⟩
  · rw [hcall, Option.some.injEq, and_iff_right h]
    exact eq_comm
  · simp [hcall, h]

/-- The statements of a setup are carried out, and a hash is made. -/
structure SetupEnv.Works (env : SetupEnv) (hash : String) : Prop where
  firstRun : env.firstRun = none
  init : env.init = none
  hashed : env.hash = .ok hash
  insert : env.insert = none

/-- A setup succeeds only for the first user, with a name and a password of some length. -/
theorem setup_iff {env : SetupEnv} {username password : String} :
    (setup env db username password token now).1 = some g ↔
      Text.trim username.toList ≠ [] ∧ 8 ≤ password.utf8ByteSize ∧ (∃ hash, env.Works hash) ∧
        db.users.rows = [] ∧ Insertable env.session db token now ∧ g = ⟨token, username, now⟩ := by
  obtain ⟨result, stamp, firstRun, init, insert, session⟩ := env
  unfold setup
  split
  · rename_i hbad
    refine iff_of_false (by simp) ?_
    rintro ⟨hname, hlength, -⟩
    rcases hbad with hbad | hbad
    · exact hname hbad
    · omega
  · rename_i hgood
    rw [not_or, Nat.not_lt] at hgood
    rw [and_iff_right hgood.1, and_iff_right hgood.2]
    split
    · rename_i hash hfirst hinit hhash hinsert
      simp only at hfirst hinit hhash hinsert
      obtain rfl : firstRun = none := by
        cases firstRun with
        | none => rfl
        | some message => cases hfirst
      rw [isFirstRun, Auth.execute_none, Except.ok.injEq, decide_eq_true_eq, List.length_eq_zero_iff]
        at hfirst
      have hnew : username ∉ db.users.rows.map Auth.User.username := by simp [hfirst]
      rw [dif_pos hnew, grantSession_iff]
      have hinsertable : ∀ users, Insertable session { db with users := users } token now ↔
          Insertable session db token now :=
        fun _ => ⟨fun h => ⟨h.works, h.free, h.bound⟩, fun h => ⟨h.works, h.free, h.bound⟩⟩
      rw [hinsertable]
      constructor
      · rintro ⟨hsession, hg⟩
        exact ⟨⟨hash, rfl, hinit, hhash, hinsert⟩, hfirst, hsession, hg⟩
      · rintro ⟨-, -, hsession, hg⟩
        exact ⟨hsession, hg⟩
    · rename_i hnot
      refine iff_of_false (by simp) ?_
      rintro ⟨⟨hash, hworks⟩, hfirst, -⟩
      refine hnot hash ?_ hworks.init hworks.hashed hworks.insert
      have hnone : firstRun = none := hworks.firstRun
      simp [isFirstRun, hnone, hfirst]

/-! ### The first user -/

/-- A session that is created leaves the users. -/
@[simp] theorem users_grantSession : (grantSession fault db token userId now).2.users = db.users := by
  rcases grantSession_cases fault db token userId now with ⟨h, hcall⟩ | ⟨h, hcall⟩
  · rw [hcall]
  · rw [hcall]

/-- A reset leaves as many users as there were. -/
theorem length_users_resetTask {oldPassword newPassword stamp : String}
    {hash : String → Except String String} {select : Query} {update delete : Fault} :
    (resetTask verify db userId oldPassword newPassword stamp hash select update
      delete).2.users.rows.length = db.users.rows.length := by
  by_cases h : ∃ stored new, Auth.Reaches ⟨verify, hash, stamp, select, update, delete⟩ db userId
      oldPassword newPassword stored new
  · obtain ⟨stored, new, h⟩ := h
    have hset : (db.setPassword userId new stamp).users.rows.length = db.users.rows.length :=
      List.length_map _
    rw [resetTask, Auth.resetPassword_of_reaches h]
    cases delete with
    | none => exact hset
    | some message => exact hset
  · simp only [not_exists] at h
    obtain ⟨e, hcall⟩ := Auth.resetPassword_of_not_reaches h
    rw [resetTask, hcall]

/-- **No handler deletes a user.** -/
theorem users_step (hs : s.db.users.rows ≠ []) (h : step verify s e = some t) :
    t.db.users.rows ≠ [] := by
  cases e with
  | setup env username password token now =>
      cases h
      simp only [setup]
      split
      · exact hs
      · split
        · split
          · simp [Keyed.Table.insert]
          · exact hs
        · exact hs
  | login n username password query =>
      rw [step] at h
      split at h
      · cases h
      · split at h <;> cases h <;> exact hs
  | verified n fault token now =>
      rw [step] at h
      split at h
      · cases h
        simp only [finishLogin]
        split
        · rwa [users_grantSession]
        · exact hs
        · exact hs
      · cases h
      · cases h
  | logout fault req =>
      cases h
      simp only [logout]
      split
      · split <;> exact hs
      · exact hs
  | letIn n query req now =>
      rw [step] at h
      split at h
      · cases h
      · split at h <;> cases h <;> exact hs
  | reset n oldPassword newPassword stamp hash select update delete =>
      rw [step] at h
      split at h
      · cases h
        rw [← List.length_pos_iff] at hs ⊢
        rwa [length_users_resetTask]
      · cases h
      · cases h
  | cleanup fault now =>
      cases h
      simp only [Auth.cleanupExpiredSessions, Auth.deleteSessions]
      cases fault <;> exact hs

/-- A setup that succeeds has made a user. -/
theorem users_setup {env : SetupEnv} {username password : String}
    (h : (setup env db username password token now).1 = some g) :
    (setup env db username password token now).2.users.rows ≠ [] := by
  obtain ⟨-, -, ⟨hash, hworks⟩, hfirst, -⟩ := setup_iff.1 h
  unfold setup at h ⊢
  split at h
  · cases h
  · rename_i hgood
    rw [if_neg hgood]
    split at h
    · split at h
      · simp [Keyed.Table.insert, *]
      · cases h
    · cases h

/-- A setup that succeeds. -/
def SetsUp (s : Site) : Event → Prop
  | .setup env username password token now =>
      ((setup env s.db username password token now).1).isSome = true
  | _ => False

/-- **There is one setup**: behind one that succeeded, none succeeds. -/
theorem setup_once {e' : Event} {es : List Event} (he : SetsUp s e)
    (h : Machine.exec (step verify) s (e :: es) = some t) : ¬ SetsUp t e' := by
  rw [Machine.exec_cons] at h
  obtain ⟨u, hu, h⟩ := Option.bind_eq_some_iff.1 h
  have hfirst : u.db.users.rows ≠ [] := by
    cases e with
    | setup env username password token now =>
        obtain ⟨g, hg⟩ := Option.isSome_iff_exists.1 he
        cases hu
        exact users_setup hg
    | login n username password query => cases he
    | verified n fault token now => cases he
    | logout fault req => cases he
    | letIn n query req now => cases he
    | reset n oldPassword newPassword stamp hash select update delete => cases he
    | cleanup fault now => cases he
  have hlast : t.db.users.rows ≠ [] :=
    Machine.exec_invariant (P := fun _ => True) (fun _ _ _ _ hs h => users_step hs h)
      (fun _ _ => trivial) hfirst h
  intro he'
  cases e' with
  | setup env username password token now =>
      obtain ⟨g, hg⟩ := Option.isSome_iff_exists.1 he'
      obtain ⟨-, -, -, hnone, -⟩ := setup_iff.1 hg
      exact hlast hnone
  | login n username password query => cases he'
  | verified n fault token now => cases he'
  | logout fault req => cases he'
  | letIn n query req now => cases he'
  | reset n oldPassword newPassword stamp hash select update delete => cases he'
  | cleanup fault now => cases he'

/-- The setup of the first day is the only one. -/
theorem setup_once_firstDay : ∃ t, Machine.exec (step plainVerify) {} firstDay = some t ∧
    ¬ SetsUp t (.setup ⟨.ok "hash", "2026-01-02 00:00:00", none, none, none, none⟩ "root" "password"
      "u" 20) := by
  refine ⟨_, rfl, ?_⟩
  exact @setup_once plainVerify {} _ plainSetup _ firstDay.tail rfl rfl

/-! ### What a session is granted for -/

variable (verify) in
/-- What a session is granted for: the first setup, or a password that has the hash that was stored for
its user when the login began. -/
inductive Earned (es : List Event) (s : Site) (g : Grant) : Event → Prop
  | setup {env : SetupEnv} {password hash : String} (hname : Text.trim g.userId.toList ≠ [])
      (hlength : 8 ≤ password.utf8ByteSize) (hworks : env.Works hash) (hfirst : s.db.users.rows = [])
      (hinsert : Insertable env.session s.db g.token g.since) :
      Earned es s g (.setup env g.userId password g.token g.since)
  | password {n : ℕ} {fault : Fault} {password hash : String}
      (hbegan : Machine.Since (step verify) (Begins n g.userId password hash) (fun _ => Finishes n) {} es)
      (hverified : verify password hash = .ok true)
      (hinsert : Insertable fault s.db g.token g.since) :
      Earned es s g (.verified n fault g.token g.since)

variable (verify) in
/-- **A session is granted exactly for what earns it.** -/
theorem granted_iff {es : List Event} {s : Site}
    (h : Machine.exec (step verify) {} es = some s) (g : Grant) (e : Event) :
    Grants verify s g e ↔ Earned verify es s g e := by
  have htask : ∀ n userId password hash, s.tasks n = some (.login userId password hash) ↔
      Machine.Since (step verify) (Begins n userId password hash) (fun _ => Finishes n) {} es := by
    intro n userId password hash
    let held := fun s : Site => s.tasks n = some (.login userId password hash)
    have hstart : ¬ held {} := Option.some_ne_none _ ∘ Eq.symm
    exact @Machine.since_iff _ _ (step verify) (Begins n userId password hash) (fun _ => Finishes n) {} s
      es held (fun _ _ _ h => task_step h) hstart h
  constructor
  · intro hg
    cases e with
    | setup env username password token now =>
        obtain ⟨hname, hlength, ⟨hash, hworks⟩, hfirst, hinsert, rfl⟩ := setup_iff.1 hg
        exact .setup hname hlength hworks hfirst hinsert
    | verified n fault token now =>
        obtain ⟨userId, password, hash, hbegan, hg⟩ := hg
        unfold finishLogin at hg
        split at hg
        · rename_i hverified
          obtain ⟨hinsert, rfl⟩ := grantSession_iff.1 hg
          exact .password ((htask n userId password hash).1 hbegan) hverified hinsert
        · cases hg
        · cases hg
    | login n username password query => cases hg
    | logout fault req => cases hg
    | letIn n query req now => cases hg
    | reset n oldPassword newPassword stamp hash select update delete => cases hg
    | cleanup fault now => cases hg
  · intro hearned
    cases hearned with
    | setup hname hlength hworks hfirst hinsert =>
        exact setup_iff.2 ⟨hname, hlength, ⟨_, hworks⟩, hfirst, hinsert, rfl⟩
    | @password n fault password hash hbegan hverified hinsert =>
        refine ⟨g.userId, password, hash, (htask n g.userId password hash).2 hbegan, ?_⟩
        unfold finishLogin
        rw [hverified]
        exact grantSession_iff.2 ⟨hinsert, rfl⟩

/-- The login that was being verified creates its session behind the logout. -/
theorem granted_firstDay : ∃ s, Machine.exec (step plainVerify) {} firstDay = some s ∧
    Grants plainVerify s ⟨"u", "admin", 10⟩ (.verified 0 none "u" 10) := by
  refine ⟨_, rfl, ?_⟩
  refine (@granted_iff plainVerify firstDay _ rfl ⟨"u", "admin", 10⟩ (.verified 0 none "u" 10)).2
    (@Earned.password _ _ _ _ 0 none "pass-word" "pass-word" ?_ (by decide)
      ⟨rfl, by decide, by decide⟩)
  refine ⟨[plainSetup], .login 0 "" "pass-word" {}, [.logout none loggedIn], _, _, rfl, rfl, ?_, rfl, ?_⟩
  · exact ⟨rfl, rfl, by decide, rfl, rfl, by decide⟩
  · intro w b hw
    cases List.mem_singleton.1 hw.mem
    exact id

end Web
