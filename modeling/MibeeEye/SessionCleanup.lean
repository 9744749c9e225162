/-
**The cleanup of sessions.**

Whether a session is accepted is decided by the number it expires at, whether it is deleted by the text
of that number.  The two agree while the number has as many digits as the current time.  A session that
expires in the future is deleted when the first digits of its number, as many as the time has, are less
than the time.

Main definitions:

* `Auth.Creation`, `Auth.createAll` — calls of `create_session`, and the sessions that they leave;
* `Auth.CleansDead` — what is to hold of a cleanup;
* `Auth.leading` — the first digits of a number.

Main results:

* `Auth.stored_createAll` — what is stored of a session;
* `Auth.mem_cleanup_iff` — **which live sessions a cleanup keeps**;
* `Auth.cleansDead_iff` — when a cleanup deletes only dead sessions.
-/

import MibeeEye.Auth
import MibeeEye.DecimalOrder

set_option relaxedAutoImplicit false
set_option autoImplicit false

namespace Auth

/-! ### The sessions that were created -/

/-- A call of `create_session`: its token, its arguments, the time, and the fault of its INSERT. -/
structure Creation where
  token : String
  userId : String
  now : ℕ
  fault : Fault := none
  deriving DecidableEq, Repr

/-- The tables when they have been created. -/
def blank : Database := ⟨.empty, .empty⟩

/-- The tables after a call, whatever it returns. -/
def create (db : Database) (c : Creation) : Database :=
  ((createSession c.fault db c.token c.userId c.now).toOption.map Prod.snd).getD db

/-- The tables after some calls. -/
def createAll (cs : List Creation) : Database := cs.foldl create blank

/-- Every session is one that `create_session` inserts. -/
def Stored (db : Database) : Prop :=
  ∀ row ∈ db.sessions.rows,
    ∃ t, t + sessionTtlSecs < 2 ^ 64 ∧ row = newSession row.token row.userId t

variable {db : Database} {row : Session} {fault : Fault} {now e : ℕ}

theorem stored_create (h : Stored db) (c : Creation) : Stored (create db c) := by
  rw [create]
  cases hcall : createSession c.fault db c.token c.userId c.now with
  | error e => exact h
  | ok result =>
      obtain ⟨token, db'⟩ := result
      obtain ⟨hnow, hfree, rfl⟩ := of_createSession hcall
      intro row hrow
      have hrow : row ∈ (db.sessions.insert _ hfree).rows := hrow
      rcases Keyed.Table.mem_insert.1 hrow with hold | rfl
      · exact h row hold
      · exact ⟨c.now, hnow, rfl⟩

/-- **What is stored of a session**, after any calls. -/
theorem stored_createAll (cs : List Creation) : Stored (createAll cs) := by
  have hrun : ∀ db, Stored db → Stored (cs.foldl create db) := by
    induction cs with
    | nil => exact fun _ h => h
    | cons c cs ih =>
        intro db h
        rw [List.foldl_cons]
        exact ih (create db c) (stored_create h c)
  exact hrun blank fun row hrow => absurd hrow List.not_mem_nil

/-- The number that a session expires at is the one it is accepted by. -/
theorem Stored.accepts_iff (h : Stored db) (hrow : row ∈ db.sessions.rows)
    (he : row.expiresAt = Nat.toDigits 10 e) : Accepts db row.token now ↔ now < e := by
  have hparse : parseU64 row.expiresAt = .ok e := by
    obtain ⟨t, ht, hnew⟩ := h row hrow
    rw [hnew] at he
    have hexpiry : t + sessionTtlSecs = e := by
      rw [← Decimal.value_toDigits (t + sessionTtlSecs), ← Decimal.value_toDigits e]
      exact congrArg Decimal.value he
    rw [hnew, he]
    exact parseU64_toDigits (hexpiry ▸ ht)
  rw [Auth.accepts_iff]
  constructor
  · rintro ⟨row', hrow', htoken, e', he', hlt⟩
    have hsame : row' = row :=
      List.inj_on_of_nodup_map db.sessions.nodup hrow' hrow htoken
    rw [hsame, hparse] at he'
    rwa [Except.ok.inj he']
  · exact fun hlt => ⟨row, hrow, rfl, e, hparse, hlt⟩

/-! ### The cleanup -/

/-- What is to hold of a cleanup: it deletes no session that would be accepted, and what it keeps of the
past is not accepted. -/
structure CleansDead (fault : Fault) (db : Database) (now : ℕ) : Prop where
  spares : ∀ row ∈ db.sessions.rows, Accepts db row.token now →
    row ∈ (cleanupExpiredSessions fault db now).2.sessions.rows
  rejects : ∀ row ∈ (cleanupExpiredSessions fault db now).2.sessions.rows,
    ∀ e, row.expiresAt = Nat.toDigits 10 e → e < now →
      ¬ Accepts (cleanupExpiredSessions fault db now).2 row.token now

/-- The first digits of `e`, as many as `now` has. -/
def leading (now e : ℕ) : ℕ :=
  e / 10 ^ ((Nat.toDigits 10 e).length - (Nat.toDigits 10 now).length)

/-- All digits, where there are equally many. -/
theorem leading_of_length (h : (Nat.toDigits 10 e).length = (Nat.toDigits 10 now).length) :
    leading now e = e := by
  rw [leading, h, Nat.sub_self, Nat.pow_zero, Nat.div_one]

/-- Nothing is added, and a cleanup that fails leaves the tables. -/
theorem mem_cleanup :
    row ∈ (cleanupExpiredSessions fault db now).2.sessions.rows ↔
      row ∈ db.sessions.rows ∧ (fault = none → ¬ row.expiresAt < Nat.toDigits 10 now) := by
  rw [cleanupExpiredSessions]
  cases fault with
  | some message => simp [deleteSessions]
  | none => simp [deleteSessions]

theorem Stored.cleanup (h : Stored db) : Stored (cleanupExpiredSessions fault db now).2 :=
  fun row hrow => h row (mem_cleanup.1 hrow).1

/-- **Which live sessions a cleanup keeps**: those whose first digits are not less than the time. -/
theorem mem_cleanup_iff (hrow : row ∈ db.sessions.rows) (he : row.expiresAt = Nat.toDigits 10 e)
    (hlive : now < e) :
    row ∈ (cleanupExpiredSessions fault db now).2.sessions.rows ↔
      (fault = none → now ≤ leading now e) := by
  rw [mem_cleanup, and_iff_right hrow, he,
    Decimal.toDigits_lt_iff (Decimal.length_toDigits_mono (Nat.le_of_lt hlive)), Nat.not_lt, leading]

/-- A clock between September 2001 and November 2286 has ten digits, and so has what expires then. -/
theorem keeps_of_tenDigits (h : Stored db) (hnow : 10 ^ 9 ≤ now) (hrow : row ∈ db.sessions.rows)
    (he : row.expiresAt = Nat.toDigits 10 e) (hlate : e < 10 ^ 10) (hlive : Accepts db row.token now) :
    row ∈ (cleanupExpiredSessions fault db now).2.sessions.rows := by
  have hlt : now < e := (h.accepts_iff hrow he).1 hlive
  have hlength : ∀ n, 10 ^ 9 ≤ n → n < 10 ^ 10 → (Nat.toDigits 10 n).length = 10 := by
    intro n hlow hhigh
    refine le_antisymm ((Nat.length_toDigits_le_iff (by decide) (by decide)).2 hhigh) ?_
    by_contra hshort
    have hle : (Nat.toDigits 10 n).length ≤ 9 := by omega
    exact absurd ((Nat.length_toDigits_le_iff (by decide) (by decide)).1 hle) (Nat.not_lt.2 hlow)
  refine (mem_cleanup_iff hrow he hlt).2 fun _ => ?_
  rw [leading_of_length
    ((hlength e (hnow.trans hlt.le) hlate).trans (hlength now hnow (hlt.trans hlate)).symm)]
  exact hlt.le

/-- **A cleanup deletes only dead sessions exactly if the first digits of what expires in the future are
not less than the time.** -/
theorem cleansDead_iff (fault : Fault) (cs : List Creation) (now : ℕ) :
    CleansDead fault (createAll cs) now ↔
      (fault = none → ∀ row ∈ (createAll cs).sessions.rows, ∀ e,
        row.expiresAt = Nat.toDigits 10 e → now < e → now ≤ leading now e) := by
  have hstored := stored_createAll cs
  constructor
  · intro h hfault row hrow e he hlt
    have hkept := h.spares row hrow ((hstored.accepts_iff hrow he).2 hlt)
    exact (mem_cleanup_iff hrow he hlt).1 hkept hfault
  · intro h
    refine ⟨?_, ?_⟩
    · intro row hrow haccepts
      obtain ⟨t, -, hnew⟩ := hstored row hrow
      have he : row.expiresAt = Nat.toDigits 10 (t + sessionTtlSecs) := by rw [hnew, newSession]
      have hlt := (hstored.accepts_iff hrow he).1 haccepts
      exact (mem_cleanup_iff hrow he hlt).2 fun hfault => h hfault row hrow _ he hlt
    · intro row hrow e he hpast haccepts
      have hlt := (hstored.cleanup.accepts_iff hrow he).1 haccepts
      omega

/-- The clock of a device that just booted shows 9 seconds: the session created then is deleted. -/
theorem not_cleansDead_booted : ¬ CleansDead none (createAll [⟨"t", "admin", 9, none⟩]) 9 := by
  intro h
  have hrows : (createAll [⟨"t", "admin", 9, none⟩]).sessions.rows = [newSession "t" "admin" 9] := by
    decide
  have hrow : newSession "t" "admin" 9 ∈ (createAll [⟨"t", "admin", 9, none⟩]).sessions.rows := by
    rw [hrows]
    exact List.mem_singleton_self _
  have he : (newSession "t" "admin" 9).expiresAt = Nat.toDigits 10 86409 := by decide
  have hkept := h.spares _ hrow (((stored_createAll _).accepts_iff hrow he).2 (by decide))
  exact (mem_cleanup.1 hkept).2 rfl (by decide)

end Auth
