/-
**Users and their sessions.**

`crates/security/src/auth.rs` keeps the password hashes of the users and their sessions in two tables,
`migrations/003_users_sessions.sql`.  The times of a session are seconds since 1970, stored as decimal
text.  A session is accepted while the number it expires at is in the future; the cleanup deletes the
sessions whose text is before that of the current time.

A statement of SQL either does what it says or fails, with a message, and does nothing.

Main definitions:

* `Auth.Session`, `Auth.User`, `Auth.Database` — the tables;
* `Auth.createSession`, `Auth.validateSession`, `Auth.cleanupExpiredSessions` — sessions;
* `Auth.getUserPassword`, `Auth.updateUserPassword`, `Auth.deleteAllUserSessions`,
  `Auth.resetPassword` — the password of a user.

Main results:

* `Auth.accepts_iff` — **which sessions are accepted**;
* `Auth.parseU64_toDigits` — a number that was stored is read back;
* `Auth.of_createSession` — what a call of `create_session` that returns has done.
-/

import MibeeEye.CheckedReads
import MibeeEye.KeyedTable
import MibeeEye.Numerals

set_option relaxedAutoImplicit false
set_option autoImplicit false

namespace Auth

/-! ### The tables -/

/-- A row of `sessions`. -/
structure Session where
  token : String
  userId : String
  createdAt : List Char
  expiresAt : List Char
  deriving DecidableEq, Repr

/-- A row of `users`. -/
structure User where
  username : String
  passwordHash : String
  createdAt : String
  updatedAt : String
  deriving DecidableEq, Repr

/-- The tables with their primary keys. -/
structure Database where
  users : Keyed.Table User.username
  sessions : Keyed.Table Session.token

/-! ### Errors -/

/-- `anyhow::Error`: what it was made from. -/
inductive AnyError
  | sqlite (context : Option String) (message : String)
  | bcrypt (message : String)
  | other (message : String)
  deriving DecidableEq, Repr

/-- `AuthError` -/
inductive AuthError
  | userNotFound (username : String)
  | wrongPassword
  | database (message : String)
  | bcrypt (message : String)
  | other (message : String)
  deriving DecidableEq, Repr

/-- `From<anyhow::Error> for AuthError` looks for the error below the context. -/
def AuthError.ofAnyhow : AnyError → AuthError
  | .sqlite _ message => .database message
  | .bcrypt message => .bcrypt message
  | .other message => .other message

/-- The message with which a statement fails, if it does. -/
abbrev Fault := Option String

/-- The faults of a SELECT: when it is prepared, and when its row is read. -/
structure Query where
  prepare : Fault := none
  read : Fault := none
  deriving DecidableEq, Repr

/-- The result of a statement. -/
def execute {α : Type} (context : Option String) (fault : Fault) (a : α) : Except AnyError α :=
  match fault with
  | none => .ok a
  | some message => .error (.sqlite context message)

@[simp] theorem execute_none {α : Type} (context : Option String) (a : α) :
    execute context none a = .ok a := rfl

/-- What returns has had its statement carried out. -/
theorem of_execute_bind {α β : Type} {context : Option String} {fault : Fault} {a : α}
    {f : α → Except AnyError β} {b : β} (h : (execute context fault a >>= f) = .ok b) : f a = .ok b := by
  cases fault with
  | none => exact h
  | some message => cases h

/-! ### Sessions -/

/-- `SESSION_TTL_SECS` -/
def sessionTtlSecs : ℕ := 24 * 60 * 60

/-- The row that `create_session` inserts. -/
def newSession (token userId : String) (now : ℕ) : Session where
  token := token
  userId := userId
  createdAt := Nat.toDigits 10 now
  expiresAt := Nat.toDigits 10 (now + sessionTtlSecs)

/-- `create_session`, with the token that `generate_token` returns. -/
def createSession (fault : Fault) (db : Database) (token userId : String) (now : ℕ) :
    Checked.Run AnyError (String × Database) :=
  if now + sessionTtlSecs < 2 ^ 64 then
    Checked.returned do
      execute (some "Failed to insert session") fault ()
      if h : token ∉ db.sessions.rows.map Session.token then
        return (token, { db with sessions := db.sessions.insert (newSession token userId now) h })
      else
        throw (.sqlite (some "Failed to insert session") "UNIQUE constraint failed: sessions.token")
  else Checked.panics

/-- **What a call of `create_session` that returns has done.** -/
theorem of_createSession {fault : Fault} {db db' : Database} {token userId token' : String} {now : ℕ}
    (h : createSession fault db token userId now = .ok (token', db')) :
    now + sessionTtlSecs < 2 ^ 64 ∧ ∃ hfree, db' =
      { db with sessions := db.sessions.insert (newSession token userId now) hfree } := by
  rw [createSession] at h
  split at h
  · rename_i hnow
    refine ⟨hnow, ?_⟩
    cases fault with
    | some message => cases h
    | none =>
        rw [execute_none, Checked.ok_bind] at h
        by_cases hfree : token ∉ db.sessions.rows.map Session.token
        · rw [dif_pos hfree] at h
          cases h
          exact ⟨hfree, rfl⟩
        · rw [dif_neg hfree] at h
          cases h
  · cases h

/-- The digits after those that were read. -/
@[grind =] def parseDigits (n : ℕ) : List Char → Except String ℕ
  | [] => .ok n
  | c :: s =>
      match Text.digitVal 10 c with
      | none => .error "invalid digit found in string"
      | some d =>
          if n * 10 + d < 2 ^ 64 then parseDigits (n * 10 + d) s
          else .error "number too large to fit in target type"

/-- `str::parse::<u64>` -/
def parseU64 (s : List Char) : Except String ℕ :=
  if s = [] then .error "cannot parse integer from empty string"
  else if s = ['+'] then .error "invalid digit found in string"
  else parseDigits 0 (Text.dropPrefix ['+'] s)

theorem le_foldl_digits (n : ℕ) (digits : List ℕ) :
    n ≤ digits.foldl (fun acc d => acc * 10 + d) n := by
  induction digits generalizing n with
  | nil => exact le_rfl
  | cons d digits ih => exact le_trans (by omega) (ih (n * 10 + d))

/-- The digits of a number are read in order, and the number they are fits from the first on. -/
theorem parseDigits_of_digits {n : ℕ} {s : List Char} {digits : List ℕ}
    (hs : s.mapM (Text.digitVal 10) = some digits)
    (hlt : digits.foldl (fun acc d => acc * 10 + d) n < 2 ^ 64) :
    parseDigits n s = .ok (digits.foldl (fun acc d => acc * 10 + d) n) := by
  induction s generalizing n digits with
  | nil =>
      have hdigits : digits = [] := by simpa using hs.symm
      rw [hdigits]
      rfl
  | cons c s ih =>
      rw [List.mapM_cons] at hs
      obtain ⟨d, hd, hs⟩ := Option.bind_eq_some_iff.1 hs
      obtain ⟨rest, hrest, hs⟩ := Option.bind_eq_some_iff.1 hs
      cases hs
      rw [List.foldl_cons] at hlt ⊢
      have hle := le_foldl_digits (n * 10 + d) rest
      rw [parseDigits, hd]
      exact (if_pos (by omega)).trans (ih hrest hlt)

/-- **A number that was stored is read back.** -/
theorem parseU64_toDigits {n : ℕ} (h : n < 2 ^ 64) : parseU64 (Nat.toDigits 10 n) = .ok n := by
  obtain ⟨digits, hdigits, hne, hvalue⟩ := Text.mapM_toDigits n
  have hsign := Text.dropPrefix_sign hdigits
  have hplus : Nat.toDigits 10 n ≠ ['+'] := by
    intro heq
    have := Text.isDigit_of_mem_toDigits (n := n) (c := '+') (by rw [heq]; exact List.mem_singleton_self _)
    exact absurd this (by decide)
  rw [Text.horner] at hvalue
  rw [parseU64, if_neg (List.length_pos_iff.1 Nat.length_toDigits_pos), if_neg hplus, hsign,
    parseDigits_of_digits hdigits (by rwa [hvalue]), hvalue]

/-- `validate_session` -/
def validateSession (query : Query) (db : Database) (token : String) (now : ℕ) :
    Except AnyError (Option String) := do
  execute (some "Failed to prepare validate session statement") query.prepare ()
  let row ← execute none query.read (db.sessions.find? token)
  match row with
  | some row =>
      let expiresSecs ← (parseU64 row.expiresAt).mapError fun e =>
        AnyError.other ("Invalid expires_at timestamp: " ++ e)
      return if now < expiresSecs then some row.userId else none
  | none => return none

/-- A session is accepted: a call for its token returns its user. -/
def Accepts (db : Database) (token : String) (now : ℕ) : Prop :=
  ∃ query userId, validateSession query db token now = .ok (some userId)

/-- **The sessions that are accepted** are those that expire in the future. -/
theorem accepts_iff {db : Database} {token : String} {now : ℕ} :
    Accepts db token now ↔
      ∃ row ∈ db.sessions.rows, row.token = token ∧ ∃ e, parseU64 row.expiresAt = .ok e ∧ now < e := by
  constructor
  · rintro ⟨query, userId, h⟩
    rw [validateSession] at h
    have hprepared := of_execute_bind h
    have hread := of_execute_bind hprepared
    cases hrow : db.sessions.find? token with
    | none => simp [hrow, pure, Except.pure] at hread
    | some row =>
        obtain ⟨hmem, htoken⟩ := Keyed.Table.find?_eq_some_iff.1 hrow
        refine ⟨row, hmem, htoken, ?_⟩
        cases he : parseU64 row.expiresAt with
        | error e => simp [hrow, he, Except.mapError] at hread
        | ok e =>
            refine ⟨e, rfl, ?_⟩
            by_contra hlate
            simp [hrow, he, hlate, Except.mapError, pure, Except.pure] at hread
  · rintro ⟨row, hmem, htoken, e, he, hlt⟩
    refine ⟨{}, row.userId, ?_⟩
    simp [validateSession, execute, Keyed.Table.find?_eq_some_iff.2 ⟨hmem, htoken⟩, he, hlt,
      Except.mapError, pure, Except.pure]

/-- The sessions that a condition holds of are deleted and counted. -/
def deleteSessions (context : String) (fault : Fault) (db : Database) (p : Session → Bool) :
    Except AnyError ℕ × Database :=
  match fault with
  | none => (.ok (db.sessions.rows.countP p),
      { db with sessions := db.sessions.filter fun row => !p row })
  | some message => (.error (.sqlite (some context) message), db)

/-- `cleanup_expired_sessions`; the columns are compared as texts. -/
def cleanupExpiredSessions (fault : Fault) (db : Database) (now : ℕ) :
    Except AnyError ℕ × Database :=
  deleteSessions "Failed to cleanup expired sessions" fault db fun row =>
    decide (row.expiresAt < Nat.toDigits 10 now)

/-! ### Passwords -/

/-- `get_user_password` -/
def getUserPassword (query : Query) (db : Database) (username : String) :
    Except AnyError (Option String) := do
  execute (some "Failed to prepare get_user_password statement") query.prepare ()
  let row ← execute none query.read (db.users.find? username)
  return row.map User.passwordHash

/-- The tables after the UPDATE: the user has this hash, changed at this time. -/
def Database.setPassword (db : Database) (username passwordHash now : String) : Database :=
  { db with users := db.users.modify (fun row => row.username = username)
              (fun row => { row with passwordHash := passwordHash, updatedAt := now }) fun _ => rfl }

/-- `update_user_password`; `now` is `datetime('now')`. -/
def updateUserPassword (fault : Fault) (now : String) (db : Database)
    (username passwordHash : String) : Except AnyError Unit × Database :=
  match fault with
  | none =>
      let affected := db.users.rows.countP fun row => row.username = username
      let db := db.setPassword username passwordHash now
      if affected = 0 then (.error (.other ("User '" ++ username ++ "' not found")), db) else (.ok (), db)
  | some message => (.error (.sqlite (some "Failed to update user password") message), db)

/-- `delete_all_user_sessions` -/
def deleteAllUserSessions (fault : Fault) (db : Database) (username : String) :
    Except AnyError ℕ × Database :=
  deleteSessions "Failed to delete user sessions" fault db fun row => row.userId = username

/-- What a call of `reset_password` depends on: the functions of `bcrypt`, the time, and the faults of
its statements. -/
structure Env where
  verify : String → String → Except String Bool
  hash : String → Except String String
  now : String
  select : Query := {}
  update : Fault := none
  delete : Fault := none

/-- `verify_password` -/
def Env.verifyPassword (env : Env) (plain hash : String) : Except AnyError Bool :=
  (env.verify plain hash).mapError AnyError.bcrypt

/-- `hash_password` -/
def Env.hashPassword (env : Env) (plain : String) : Except AnyError String :=
  (env.hash plain).mapError AnyError.bcrypt

/-- `reset_password` -/
@[grind =]
def resetPassword (env : Env) (db : Database) (username oldPassword newPassword : String) :
    Except AuthError Unit × Database :=
  match getUserPassword env.select db username with
  | .error e => (.error (.ofAnyhow e), db)
  | .ok none => (.error (.userNotFound username), db)
  | .ok (some storedHash) =>
      match env.verifyPassword oldPassword storedHash with
      | .error e => (.error (.ofAnyhow e), db)
      | .ok false => (.error .wrongPassword, db)
      | .ok true =>
          match env.hashPassword newPassword with
          | .error e => (.error (.ofAnyhow e), db)
          | .ok newHash =>
              match updateUserPassword env.update env.now db username newHash with
              | (.error e, db) => (.error (.ofAnyhow e), db)
              | (.ok (), db) =>
                  match deleteAllUserSessions env.delete db username with
                  | (.error e, db) => (.error (.ofAnyhow e), db)
                  | (.ok _, db) => (.ok (), db)

end Auth
