/-
**Resetting a password.**

A call of `reset_password` writes twice: it stores the new hash, and then it deletes the sessions of the
user.  Either statement can fail.  If the first one fails, nothing has changed; if the second one does,
the password is another one and the sessions are still there.

Main definitions:

* `Auth.storedHash`, `Auth.userSessions` — what a call is about;
* `Auth.AllOrNothing` — what is to hold of a call;
* `Auth.Reaches`, `Auth.Interrupted` — a call gets to the second statement, and stops there.

Main results:

* `Auth.resetPassword_of_reaches`, `Auth.resetPassword_of_not_reaches` — **what a call does**;
* `Auth.not_accepts_of_deleted` — no session of a user is accepted any more;
* `Auth.allOrNothing_iff` — when a call does everything or nothing.
-/

import MibeeEye.Auth

set_option relaxedAutoImplicit false
set_option autoImplicit false

namespace Auth

/-! ### What is to hold -/

/-- The password hash of a user. -/
def storedHash (db : Database) (username : String) : Option String :=
  (db.users.find? username).map User.passwordHash

/-- The sessions of a user. -/
def userSessions (db : Database) (username : String) : List Session :=
  db.sessions.rows.filter fun row => row.userId = username

/-- What is to hold of a call: an error leaves the hash and the sessions as they were, and after a
success no session of the user that there was is accepted, at whatever time. -/
structure AllOrNothing (env : Env) (db : Database) (username oldPassword newPassword : String) :
    Prop where
  undone : ∀ e db', resetPassword env db username oldPassword newPassword = (.error e, db') →
    storedHash db' username = storedHash db username ∧
      userSessions db' username = userSessions db username
  complete : ∀ db', resetPassword env db username oldPassword newPassword = (.ok (), db') →
    ∀ row ∈ db.sessions.rows, row.userId = username → ∀ now, ¬ Accepts db' row.token now

/-! ### What a call does -/

/-- A call gets to the DELETE: its SELECT finds the hash, the old password has it, the new password is
hashed, and the UPDATE is carried out. -/
structure Reaches (env : Env) (db : Database) (username oldPassword newPassword hash newHash : String) :
    Prop where
  selected : getUserPassword env.select db username = .ok (some hash)
  verified : env.verify oldPassword hash = .ok true
  hashed : env.hash newPassword = .ok newHash
  updated : env.update = none

/-- A call gets to the DELETE with another hash than the one that was stored, and the DELETE fails. -/
def Interrupted (env : Env) (db : Database) (username oldPassword newPassword : String) : Prop :=
  ∃ hash newHash, Reaches env db username oldPassword newPassword hash newHash ∧ newHash ≠ hash ∧
    env.delete ≠ none

variable {env : Env} {db : Database} {username oldPassword newPassword hash newHash : String}

/-- A SELECT that returns has read the row. -/
theorem getUserPassword_eq_ok {query : Query} {found : Option String}
    (h : getUserPassword query db username = .ok found) : found = storedHash db username := by
  rw [getUserPassword] at h
  have hprepared := of_execute_bind h
  have hread := of_execute_bind hprepared
  cases hread
  rfl

/-- A user who was found is one the UPDATE affects. -/
theorem updateUserPassword_of_found {fault : Fault} {now : String}
    (h : storedHash db username = some hash) :
    updateUserPassword fault now db username newHash =
      match fault with
      | none => (.ok (), db.setPassword username newHash now)
      | some message => (.error (.sqlite (some "Failed to update user password") message), db) := by
  cases fault with
  | some message => rfl
  | none =>
      obtain ⟨row, hrow, -⟩ := Option.map_eq_some_iff.1 h
      obtain ⟨hmem, hname⟩ := Keyed.Table.find?_eq_some_iff.1 hrow
      have hpos : 0 < db.users.rows.countP fun row => row.username = username :=
        List.countP_pos_iff.2 ⟨row, hmem, decide_eq_true hname⟩
      rw [updateUserPassword]
      exact if_neg (Nat.ne_of_gt hpos)

/-- **A call that gets to the DELETE** has stored the hash, and does what the DELETE does. -/
theorem resetPassword_of_reaches
    (h : Reaches env db username oldPassword newPassword hash newHash) :
    resetPassword env db username oldPassword newPassword =
      match env.delete with
      | none => (.ok (), { db.setPassword username newHash env.now with
          sessions := db.sessions.filter fun row => !decide (row.userId = username) })
      | some message => (.error (.database message), db.setPassword username newHash env.now) := by
  have hstored := getUserPassword_eq_ok h.selected
  rw [resetPassword, h.selected]
  simp only [Env.verifyPassword, h.verified, Env.hashPassword, h.hashed, Except.mapError,
    updateUserPassword_of_found hstored.symm, h.updated]
  cases hdelete : env.delete with
  | none => rfl
  | some message => rfl

/-- **A call that does not get there** returns an error and has changed nothing. -/
theorem resetPassword_of_not_reaches
    (h : ∀ hash newHash, ¬ Reaches env db username oldPassword newPassword hash newHash) :
    ∃ e, resetPassword env db username oldPassword newPassword = (.error e, db) := by
  rw [resetPassword]
  cases hselected : getUserPassword env.select db username with
  | error e => exact ⟨_, rfl⟩
  | ok found =>
      cases found with
      | none => exact ⟨_, rfl⟩
      | some hash =>
          have hstored := (getUserPassword_eq_ok hselected).symm
          cases hverified : env.verify oldPassword hash with
          | error e => simp [Env.verifyPassword, hverified, Except.mapError]
          | ok same =>
              cases same with
              | false => simp [Env.verifyPassword, hverified, Except.mapError]
              | true =>
                  cases hhashed : env.hash newPassword with
                  | error e =>
                      simp [Env.verifyPassword, hverified, Env.hashPassword, hhashed, Except.mapError]
                  | ok newHash =>
                      cases hupdated : env.update with
                      | none => exact absurd ⟨hselected, hverified, hhashed, hupdated⟩ (h hash newHash)
                      | some message =>
                          refine ⟨.database message, ?_⟩
                          simp only [Env.verifyPassword, hverified, Env.hashPassword, hhashed,
                            Except.mapError, updateUserPassword_of_found hstored]
                          rfl

/-! ### When it holds -/

/-- The hash of the user after the UPDATE. -/
theorem storedHash_setPassword {now : String} (h : storedHash db username = some hash) :
    storedHash (db.setPassword username newHash now) username = some newHash := by
  obtain ⟨row, hrow, -⟩ := Option.map_eq_some_iff.1 h
  have hname := (Keyed.Table.find?_eq_some_iff.1 hrow).2
  rw [storedHash, Database.setPassword, Keyed.Table.find?_modify, hrow]
  simp [hname]

/-- **No session of a user is accepted any more** when they were deleted. -/
theorem not_accepts_of_deleted {db' : Database} {row : Session} {now : ℕ}
    (hdeleted : db'.sessions = db.sessions.filter fun row => !decide (row.userId = username))
    (hrow : row ∈ db.sessions.rows) (huser : row.userId = username) :
    ¬ Accepts db' row.token now := by
  rw [accepts_iff, hdeleted]
  rintro ⟨row', hrow', htoken, -⟩
  obtain ⟨hold, hother⟩ := Keyed.Table.mem_filter.1 hrow'
  -- it would be the same session, since the tokens are a key
  have hsame : row' = row := List.inj_on_of_nodup_map db.sessions.nodup hold hrow htoken
  rw [hsame] at hother
  simp [huser] at hother

/-- A call that does not get to the DELETE changes nothing. -/
theorem allOrNothing_of_not_reaches
    (h : ∀ hash newHash, ¬ Reaches env db username oldPassword newPassword hash newHash) :
    AllOrNothing env db username oldPassword newPassword := by
  obtain ⟨e, hcall⟩ := resetPassword_of_not_reaches h
  constructor
  · intro e' db' herror
    rw [hcall] at herror
    cases herror
    exact ⟨rfl, rfl⟩
  · intro db' hok
    rw [hcall] at hok
    cases hok

/-- A DELETE that succeeds leaves no session of the user. -/
theorem allOrNothing_of_deleted (h : Reaches env db username oldPassword newPassword hash newHash)
    (hdelete : env.delete = none) : AllOrNothing env db username oldPassword newPassword := by
  have hcall := resetPassword_of_reaches h
  rw [hdelete] at hcall
  constructor
  · intro e db' herror
    rw [hcall] at herror
    cases herror
  · intro db' hok row hrow huser now
    rw [hcall] at hok
    cases hok
    exact not_accepts_of_deleted rfl hrow huser

/-- A DELETE that fails leaves the new hash behind, which is to be the old one. -/
theorem allOrNothing_iff_of_failed (h : Reaches env db username oldPassword newPassword hash newHash)
    (hdelete : env.delete ≠ none) :
    AllOrNothing env db username oldPassword newPassword ↔ newHash = hash := by
  have hstored := (getUserPassword_eq_ok h.selected).symm
  obtain ⟨message, hmessage⟩ := Option.ne_none_iff_exists'.1 hdelete
  have hcall := resetPassword_of_reaches h
  rw [hmessage] at hcall
  constructor
  · intro hall
    have hundone := (hall.undone _ _ hcall).1
    rw [storedHash_setPassword hstored, hstored] at hundone
    exact Option.some.inj hundone
  · intro heq
    constructor
    · intro e db' herror
      rw [hcall] at herror
      cases herror
      exact ⟨by rw [storedHash_setPassword hstored, hstored, heq], rfl⟩
    · intro db' hok
      rw [hcall] at hok
      cases hok

/-- The hashes by which a call gets to its DELETE are fixed. -/
theorem Reaches.unique {hash' newHash' : String}
    (h : Reaches env db username oldPassword newPassword hash newHash)
    (h' : Reaches env db username oldPassword newPassword hash' newHash') :
    hash' = hash ∧ newHash' = newHash := by
  have hselected := h'.selected.symm.trans h.selected
  exact ⟨Option.some.inj (Except.ok.inj hselected), Except.ok.inj (h'.hashed.symm.trans h.hashed)⟩

/-- **A call does everything or nothing exactly if it is not interrupted** between its two writes. -/
theorem allOrNothing_iff (env : Env) (db : Database) (username oldPassword newPassword : String) :
    AllOrNothing env db username oldPassword newPassword ↔
      ¬ Interrupted env db username oldPassword newPassword := by
  by_cases hreaches : ∃ hash newHash, Reaches env db username oldPassword newPassword hash newHash
  · obtain ⟨hash, newHash, hreach⟩ := hreaches
    have hinterrupted : Interrupted env db username oldPassword newPassword ↔
        newHash ≠ hash ∧ env.delete ≠ none := by
      constructor
      · rintro ⟨hash', newHash', hreach', hne⟩
        obtain ⟨rfl, rfl⟩ := hreach.unique hreach'
        exact hne
      · intro hne
        exact ⟨hash, newHash, hreach, hne⟩
    rw [hinterrupted]
    by_cases hdelete : env.delete = none
    · exact iff_of_true (allOrNothing_of_deleted hreach hdelete) fun h => h.2 hdelete
    · rw [allOrNothing_iff_of_failed hreach hdelete]
      simp [hdelete]
  · simp only [not_exists] at hreaches
    exact iff_of_true (allOrNothing_of_not_reaches hreaches)
      fun ⟨hash, newHash, hreach, _⟩ => hreaches hash newHash hreach

/-- A database that becomes read-only between the two statements. -/
def readonlyEnv : Env where
  verify := fun plain hash => .ok (hash == "$2b$12$" ++ plain)
  hash := fun plain => .ok ("$2b$12$" ++ plain)
  now := "2026-01-01 00:00:00"
  delete := some "attempt to write a readonly database"

/-- A user with a session. -/
def oneUser : Database where
  users := ⟨[⟨"admin", "$2b$12$old_pass", "", ""⟩], List.nodup_singleton _⟩
  sessions := ⟨[newSession "t" "admin" 1700000000], List.nodup_singleton _⟩

/-- The call returns an error, and the password is the new one. -/
theorem not_allOrNothing_readonly :
    ¬ AllOrNothing readonlyEnv oneUser "admin" "old_pass" "shiny_new" := by
  have hreach : Reaches readonlyEnv oneUser "admin" "old_pass" "shiny_new" "$2b$12$old_pass"
      "$2b$12$shiny_new" := ⟨rfl, by decide, rfl, rfl⟩
  intro h
  have hstored := (h.undone _ _ (resetPassword_of_reaches hreach)).1
  rw [storedHash_setPassword (getUserPassword_eq_ok hreach.selected).symm] at hstored
  exact absurd hstored (by decide)

end Auth
