/-
**The login lockout.**

`login_handler` of `crates/web/src/routes/mod.rs` counts the failures of a username in a table.  From
the fifth failure on it refuses further attempts for a time that doubles with every failure.  A call
looks into the table and, if it may, hands the password to the verification in one step; the failure is
recorded when the verification is over.  Any number of calls are under way at once.

Every look into the table first removes the entries that were not touched for half an hour, with what
they have counted.

Main definitions:

* `Login.Table`, `Login.checkLockout`, `Login.recordFailure`, `Login.resetFailures`,
  `Login.cleanupOldEntries` — the table;
* `Login.Server`, `Login.loginStep` — the calls, and beside the table what has happened to each
  username;
* `Login.Holds` — what is to hold of a run;
* `Login.Remembered` — the steps before which no failure that matters was forgotten.

Main results:

* `Login.locked_of_remembered` — the table refuses what is to be refused;
* `Login.inv_loginStep` — the invariant is kept by every such step;
* `Login.holds_of_remembered` — **the lockout holds in a run of such steps**.
-/

import MibeeEye.StepMachine
import MibeeEye.Text
import Mathlib.Logic.Function.Basic
import Mathlib.Tactic.Positivity

set_option relaxedAutoImplicit false
set_option autoImplicit false

namespace Login

open Machine

/-! ### The table -/

/-- The clock counts nanoseconds. -/
def secs (n : ℕ) : ℕ := n * 1000000000

/-- `LoginFailures`: the count and the time of the last failure of a username. -/
abbrev Table := String → Option (ℕ × ℕ)

/-- The entry was touched in the last half hour. -/
def isRecent (now : ℕ) (v : ℕ × ℕ) : Bool := decide (now < v.2 + secs 1800)

/-- `cleanup_old_entries` -/
def cleanupOldEntries (table : Table) (now : ℕ) : Table := fun username =>
  (table username).filter (isRecent now)

/-- The lockout of a count, in 64 bits. -/
def lockoutDuration (count : ℕ) : ℕ := 60 * (2 ^ (count - 5) % 2 ^ 64) % 2 ^ 64

/-- What `check_lockout` makes of the entry. -/
def secondsRemaining (now : ℕ) : Option (ℕ × ℕ) → Option ℕ
  | some (count, lastAttempt) =>
      if 5 ≤ count then
        let elapsed := (now - lastAttempt) / 1000000000
        if elapsed < lockoutDuration count then some (lockoutDuration count - elapsed) else none
      else none
  | none => none

/-- `check_lockout` -/
def checkLockout (table : Table) (username : String) (now : ℕ) : Option ℕ × Table :=
  (secondsRemaining now (cleanupOldEntries table now username), cleanupOldEntries table now)

/-- `record_failure`; the count has 32 bits. -/
def recordFailure (table : Table) (username : String) (now : ℕ) : Table :=
  Function.update table username (some ((((table username).getD (0, now)).1 + 1) % 2 ^ 32, now))

/-- `reset_failures` -/
def resetFailures (table : Table) (username : String) : Table := Function.update table username none

/-! ### Calls -/

/-- What `get_user_password` says. -/
inductive Lookup
  | found
  | unknown
  | failed
  deriving DecidableEq, Repr

/-- What the verification says. -/
inductive Verdict
  | valid
  | wrong
  | failed
  deriving DecidableEq, Repr

/-- A call of `login_handler`. -/
inductive Call
  | unused
  /-- 429 -/
  | locked (retryIn : ℕ)
  /-- 401 -/
  | unauthorized
  /-- 500 -/
  | failed
  /-- The password is verified. -/
  | verifying (username : String)
  /-- The password was right. -/
  | verified
  deriving DecidableEq, Repr

/-- What has happened to a username since its last success: the failures recorded, the time of the last
one, and whether an entry was removed. -/
structure History where
  failures : ℕ := 0
  last : ℕ := 0
  forgotten : Bool := false
  deriving DecidableEq, Repr

/-- The table and the calls; beside them the history. -/
structure Server where
  table : Table := fun _ => none
  history : String → History := fun _ => {}
  clock : ℕ := 0
  next : ℕ := 0
  calls : ℕ → Call := fun _ => .unused

/-- The username of a request: `admin` if it is blank. -/
def resolve (username : String) : String :=
  if Text.trim username.toList = [] then "admin" else username

/-- The table is cleaned up. -/
def Server.cleanup (s : Server) (now : ℕ) : Server :=
  { s with
    table := cleanupOldEntries s.table now
    history := fun x => { s.history x with
      forgotten := (s.history x).forgotten || (s.table x).any fun v => !isRecent now v } }

/-- A failure is recorded. -/
def Server.record (s : Server) (username : String) (now : ℕ) : Server :=
  { s with
    table := recordFailure s.table username now
    history := Function.update s.history username { s.history username with
      failures := (s.history username).failures + 1
      last := now } }

/-- A success is recorded. -/
def Server.reset (s : Server) (username : String) : Server :=
  { s with
    table := resetFailures s.table username
    history := Function.update s.history username { s.history username with
      failures := 0
      forgotten := false } }

/-- What can happen. -/
inductive LoginEvent
  /-- A request for a username has the database lock. -/
  | login (username : String) (lookup : Lookup) (now : ℕ)
  /-- The verification of call `n` is over. -/
  | verified (n : ℕ) (verdict : Verdict) (now : ℕ)
  deriving DecidableEq, Repr

/-- The call that has got the lock, up to its first await after it. -/
def Server.begin (s : Server) (call : Call) : Server :=
  { s with next := s.next + 1, calls := Function.update s.calls s.next call }

/-- Call `n` goes on at `now`. -/
def Server.goOn (s : Server) (n : ℕ) (call : Call) : Server :=
  { s with calls := Function.update s.calls n call }

/-- One step.  The clock does not go back. -/
def loginStep (s : Server) : LoginEvent → Option Server
  | .login username lookup now =>
      if s.clock ≤ now then
        let s' := { s.cleanup now with clock := now }
        match (checkLockout s.table (resolve username) now).1, lookup with
        | some retryIn, _ => some (s'.begin (.locked retryIn))
        | none, .found => some (s'.begin (.verifying (resolve username)))
        | none, .unknown => some ((s'.record (resolve username) now).begin .unauthorized)
        | none, .failed => some (s'.begin .failed)
      else none
  | .verified n verdict now =>
      if s.clock ≤ now then
        match s.calls n, verdict with
        | .verifying username, .valid =>
            some ({ s.reset username with clock := now }.goOn n .verified)
        | .verifying username, .wrong =>
            some ({ s.record username now with clock := now }.goOn n .unauthorized)
        | .verifying _, .failed => some ({ s with clock := now }.goOn n .failed)
        | _, _ => none
      else none

/-! ### What is to hold -/

/-- The seconds for which a username is to be locked after its `k`-th failure: the documented doubling,
from the fifth on. -/
def documentedLockout (k : ℕ) : ℕ := 60 * 2 ^ (k - 5)

/-- The username is to be locked. -/
def MustWait (h : History) (now : ℕ) : Prop :=
  5 ≤ h.failures ∧ now < h.last + secs (documentedLockout h.failures)

instance (h : History) (now : ℕ) : Decidable (MustWait h now) :=
  inferInstanceAs (Decidable (5 ≤ h.failures ∧ now < h.last + secs (documentedLockout h.failures)))

/-- **The lockout holds** in a run: no verification is started for a username that is to be locked, and
the length of a lockout is computed without overflow. -/
structure Holds (es : List LoginEvent) : Prop where
  waits : ∀ s username now, Occurs loginStep {} es s (.login username .found now) →
    (checkLockout s.table (resolve username) now).1 = none →
    s.clock ≤ now → ¬ MustWait (s.history (resolve username)) now
  exact : ∀ s, Passes loginStep {} es s → ∀ username, ∀ v ∈ s.table username, 5 ≤ v.1 →
    60 * 2 ^ (v.1 - 5) < 2 ^ 64

/-- The step records a failure for the username, if the table lets it. -/
def Records (s : Server) : LoginEvent → Option String
  | .login username .unknown _ => some (resolve username)
  | .verified n .wrong _ =>
      match s.calls n with
      | .verifying username => some username
      | _ => none
  | .login _ _ _ | .verified _ _ _ => none

/-- **The steps before which no failure that matters was forgotten**: when a username is to be locked,
none of its failures was removed from the table and none is by this call, and no failure is recorded
for one that has 63. -/
def Remembered (s : Server) (e : LoginEvent) : Prop :=
  (match e with
    | .login username _ now => MustWait (s.history (resolve username)) now →
        (s.history (resolve username)).forgotten = false ∧
        now < (s.history (resolve username)).last + secs 1800
    | .verified _ _ _ => True) ∧
  ∀ username ∈ Records s e, (s.history username).failures < 63

instance (s : Server) : DecidablePred (Remembered s)
  | .login username lookup now => inferInstanceAs (Decidable
      ((MustWait (s.history (resolve username)) now →
        (s.history (resolve username)).forgotten = false ∧
        now < (s.history (resolve username)).last + secs 1800) ∧
        ∀ x ∈ Records s (.login username lookup now), (s.history x).failures < 63))
  | .verified n verdict now => inferInstanceAs (Decidable
      (True ∧ ∀ x ∈ Records s (.verified n verdict now), (s.history x).failures < 63))

/-! ### The length of a lockout -/

theorem documentedLockout_lt {count : ℕ} (h : count ≤ 63) : documentedLockout count < 2 ^ 64 := by
  have hpow : 2 ^ (count - 5) ≤ 2 ^ 58 := Nat.pow_le_pow_right (by decide) (by omega)
  unfold documentedLockout
  omega

/-- Up to 63 failures the lockout is the documented one. -/
theorem lockoutDuration_eq {count : ℕ} (h : count ≤ 63) :
    lockoutDuration count = documentedLockout count := by
  have hpow : 2 ^ (count - 5) ≤ 2 ^ 58 := Nat.pow_le_pow_right (by decide) (by omega)
  rw [lockoutDuration, Nat.mod_eq_of_lt (Nat.lt_of_le_of_lt hpow (by decide))]
  exact Nat.mod_eq_of_lt (documentedLockout_lt h)

/-- And from 64 failures on it is not in 64 bits. -/
theorem le_documentedLockout {count : ℕ} (h : 64 ≤ count) : 2 ^ 64 ≤ documentedLockout count := by
  have hpow : 2 ^ 59 ≤ 2 ^ (count - 5) := Nat.pow_le_pow_right (by decide) (by omega)
  unfold documentedLockout
  omega

/-! ### The invariant -/

/-- What the steps keep. -/
structure Inv (s : Server) : Prop where
  last_le : ∀ x, (s.history x).last ≤ s.clock
  /-- An entry has the time of the last failure, and counts no more than there were. -/
  entry : ∀ x, ∀ v ∈ s.table x, v.1 ≤ (s.history x).failures ∧ v.2 = (s.history x).last
  /-- If nothing was forgotten, it counts all of them. -/
  remembered : ∀ x, (s.history x).forgotten = false →
    s.table x = if (s.history x).failures = 0 then none
      else some ((s.history x).failures, (s.history x).last)
  bound : ∀ x, (s.history x).failures ≤ 63

theorem inv_initial : Inv {} := by
  refine ⟨fun _ => Nat.le_refl _, ?_, fun _ _ => rfl, fun _ => Nat.zero_le _⟩
  intro x v hv
  cases hv

/-- **The table refuses what is to be refused.** -/
theorem locked_of_remembered {s : Server} (hs : Inv s) {username : String} {now : ℕ}
    (hwait : MustWait (s.history username) now)
    (hforgotten : (s.history username).forgotten = false)
    (hyoung : now < (s.history username).last + secs 1800) :
    (checkLockout s.table username now).1 ≠ none := by
  obtain ⟨hfive, hnow⟩ := hwait
  have hentry : cleanupOldEntries s.table now username
      = some ((s.history username).failures, (s.history username).last) := by
    rw [cleanupOldEntries, hs.remembered username hforgotten, if_neg (by omega)]
    simp [isRecent, hyoung]
  have helapsed : (now - (s.history username).last) / 1000000000
      < lockoutDuration (s.history username).failures := by
    rw [lockoutDuration_eq (hs.bound username), Nat.div_lt_iff_lt_mul (by decide)]
    unfold secs at hnow
    have hpos : 0 < documentedLockout (s.history username).failures := by
      unfold documentedLockout
      positivity
    omega
  rw [checkLockout, hentry, secondsRemaining, if_pos hfive]
  simp [helapsed]

/-! ### Every step -/

/-- The calls and the clock go on. -/
theorem inv_of_eq {s t : Server} (hs : Inv s) (htable : t.table = s.table)
    (hhistory : t.history = s.history) (hclock : s.clock ≤ t.clock) : Inv t := by
  constructor
  · intro x
    rw [hhistory]
    exact (hs.last_le x).trans hclock
  · rw [htable, hhistory]
    exact hs.entry
  · rw [htable, hhistory]
    exact hs.remembered
  · rw [hhistory]
    exact hs.bound

/-- An entry that is not forgotten stays. -/
theorem filter_of_not_any {p : ℕ × ℕ → Bool} {o : Option (ℕ × ℕ)}
    (h : (o.any fun v => !p v) = false) : o.filter p = o := by
  cases o with
  | none => rfl
  | some v =>
      have hv : p v = true := by simpa using h
      simp [hv]

/-- **The table is cleaned up.** -/
theorem inv_cleanup {s : Server} (hs : Inv s) (now : ℕ) : Inv (s.cleanup now) := by
  refine ⟨hs.last_le, ?_, ?_, hs.bound⟩
  · intro x v hv
    exact hs.entry x v (Option.mem_filter_iff.1 hv).1
  · intro x h
    obtain ⟨hbefore, hkept⟩ := Bool.or_eq_false_iff.1 h
    exact (filter_of_not_any hkept).trans (hs.remembered x hbefore)

/-- **A failure is recorded.** -/
theorem inv_record {s : Server} (hs : Inv s) {username : String} {now : ℕ} (hnow : s.clock ≤ now)
    (hfew : (s.history username).failures < 63) :
    Inv { s.record username now with clock := now } := by
  -- the count before, which 32 bits hold
  have hcount : ((s.table username).getD (0, now)).1 ≤ (s.history username).failures := by
    cases hx : s.table username with
    | none => exact Nat.zero_le _
    | some v => exact (hs.entry username v hx).1
  constructor
  · intro x
    by_cases hx : x = username
    · subst hx
      simp [Server.record]
    · simpa [Server.record, hx] using (hs.last_le x).trans hnow
  · intro x v hv
    by_cases hx : x = username
    · subst hx
      simp only [Server.record, recordFailure, Function.update_self] at hv ⊢
      cases hv
      refine ⟨?_, rfl⟩
      dsimp only
      omega
    · simp only [Server.record, recordFailure, Function.update_of_ne hx] at hv ⊢
      exact hs.entry x v hv
  · intro x h
    by_cases hx : x = username
    · subst hx
      simp only [Server.record, recordFailure, Function.update_self] at h ⊢
      rw [hs.remembered x h, if_neg (Nat.succ_ne_zero _)]
      split
      · rename_i hzero
        simp [hzero]
      · rw [Option.getD_some, Nat.mod_eq_of_lt (by omega)]
    · simp only [Server.record, recordFailure, Function.update_of_ne hx] at h ⊢
      exact hs.remembered x h
  · intro x
    by_cases hx : x = username
    · subst hx
      simp only [Server.record, Function.update_self]
      omega
    · simpa [Server.record, hx] using hs.bound x

/-- **A success is recorded.** -/
theorem inv_reset {s : Server} (hs : Inv s) (username : String) : Inv (s.reset username) := by
  constructor
  · intro x
    by_cases hx : x = username
    · subst hx
      simpa [Server.reset] using hs.last_le x
    · simpa [Server.reset, hx] using hs.last_le x
  · intro x v hv
    by_cases hx : x = username
    · subst hx
      simp [Server.reset, resetFailures] at hv
    · simp only [Server.reset, resetFailures, Function.update_of_ne hx] at hv ⊢
      exact hs.entry x v hv
  · intro x h
    by_cases hx : x = username
    · subst hx
      simp [Server.reset, resetFailures]
    · simp only [Server.reset, resetFailures, Function.update_of_ne hx] at h ⊢
      exact hs.remembered x h
  · intro x
    by_cases hx : x = username
    · subst hx
      simp [Server.reset]
    · simpa [Server.reset, hx] using hs.bound x

/-- A call for a username begins. -/
theorem inv_login {s t : Server} {username : String} {lookup : Lookup} {now : ℕ} (hs : Inv s)
    (hremembered : Remembered s (.login username lookup now))
    (h : loginStep s (.login username lookup now) = some t) : Inv t := by
  rw [loginStep, Option.ite_none_right_eq_some] at h
  obtain ⟨hclock, h⟩ := h
  have hcleaned : Inv { s.cleanup now with clock := now } :=
    inv_of_eq (inv_cleanup hs now) rfl rfl hclock
  split at h
  · cases h
    exact inv_of_eq hcleaned rfl rfl (Nat.le_refl _)
  · cases h
    exact inv_of_eq hcleaned rfl rfl (Nat.le_refl _)
  · cases h
    exact inv_of_eq (inv_record hcleaned (Nat.le_refl now) (hremembered.2 _ rfl)) rfl rfl
      (Nat.le_refl _)
  · cases h
    exact inv_of_eq hcleaned rfl rfl (Nat.le_refl _)

/-- A verification is over. -/
theorem inv_verified {s t : Server} {n : ℕ} {verdict : Verdict} {now : ℕ} (hs : Inv s)
    (hremembered : Remembered s (.verified n verdict now))
    (h : loginStep s (.verified n verdict now) = some t) : Inv t := by
  unfold loginStep at h
  rw [Option.ite_none_right_eq_some] at h
  obtain ⟨hclock, h⟩ := h
  split at h
  · cases h
    exact inv_of_eq (inv_reset hs _) rfl rfl hclock
  · rename_i username hcall
    cases h
    refine inv_of_eq (inv_record hs hclock (hremembered.2 username ?_)) rfl rfl (Nat.le_refl _)
    simp [Records, hcall]
  · cases h
    exact inv_of_eq hs rfl rfl hclock
  · cases h

/-- **Every step before which nothing that matters was forgotten keeps the invariant.** -/
theorem inv_loginStep {s t : Server} {e : LoginEvent} (hs : Inv s) (hremembered : Remembered s e)
    (h : loginStep s e = some t) : Inv t := by
  cases e with
  | login username lookup now => exact inv_login hs hremembered h
  | verified n verdict now => exact inv_verified hs hremembered h

/-! ### Every run -/

/-- **The lockout holds** in a run in which no failure of a username that is to be locked was forgotten,
and no username has more than 63. -/
theorem holds_of_remembered {es : List LoginEvent}
    (hremembered : ∀ s e, Occurs loginStep {} es s e → Remembered s e) : Holds es := by
  have hinv : ∀ s, Passes loginStep {} es s → Inv s := fun s h =>
    passes_induction (fun u e _ hu hs => inv_loginStep hs (hremembered u e hu)) inv_initial h
  constructor
  · intro s username now hoccurs hnone hclock hwait
    obtain ⟨hforgotten, hyoung⟩ := (hremembered s _ hoccurs).1 hwait
    exact locked_of_remembered (hinv s hoccurs.passes_before) hwait hforgotten hyoung hnone
  · intro s hpasses username v hv _
    have hs := hinv s hpasses
    exact documentedLockout_lt (((hs.entry username v hv).1).trans (hs.bound username))

/-- Five calls fail at once, a sixth is refused, and a seventh, when a minute has passed, is not. -/
def fiveAtOnce : List LoginEvent :=
  List.replicate 5 (.login " " .found 0) ++
  [.verified 0 .wrong (secs 1), .verified 1 .wrong (secs 1), .verified 2 .wrong (secs 1),
    .verified 3 .wrong (secs 1), .verified 4 .wrong (secs 1), .login "admin" .found (secs 30),
    .login "admin" .found (secs 61), .verified 6 .valid (secs 62)]

theorem holds_fiveAtOnce :
    Holds fiveAtOnce ∧ (exec loginStep {} fiveAtOnce).map (fun s => (s.calls 5, s.calls 6))
      = some (.locked 31, .verified) :=
  ⟨holds_of_remembered fun s e h => of_decide_eq_true (forall_occurs_of_along
    (p := fun s e => decide (Remembered s e)) (by decide) s e h), by decide⟩

/-- Call `n` for `admin` fails at once. -/
def failedAttempt (n now : ℕ) : List LoginEvent :=
  [.login "admin" .found now, .verified n .wrong now]

/-- Ten failures, each as soon as the lockout of the one before is over. -/
def tenFailures : List LoginEvent :=
  failedAttempt 0 (secs 1) ++ failedAttempt 1 (secs 1) ++ failedAttempt 2 (secs 1) ++
  failedAttempt 3 (secs 1) ++ failedAttempt 4 (secs 1) ++ failedAttempt 5 (secs 61) ++
  failedAttempt 6 (secs 181) ++ failedAttempt 7 (secs 421) ++ failedAttempt 8 (secs 901) ++
  failedAttempt 9 (secs 1861)

/-- **The lockout does not hold**: after ten failures, which lock for 32 minutes, a verification is
started after 30. -/
theorem not_holds_tenFailures :
    ¬ Holds (tenFailures ++ [.login "admin" .found (secs 3661)]) := by
  intro h
  have hend : (exec loginStep {} tenFailures).map (fun s =>
      ((checkLockout s.table (resolve "admin") (secs 3661)).1, s.clock,
        s.history (resolve "admin"))) = some (none, secs 1861, ⟨10, secs 1861, false⟩) := by
    decide
  obtain ⟨s, hs, heq⟩ := Option.map_eq_some_iff.1 hend
  obtain ⟨hnone, heq⟩ := Prod.mk.inj heq
  obtain ⟨hclock, hhistory⟩ := Prod.mk.inj heq
  refine h.waits s "admin" (secs 3661) ⟨tenFailures, List.prefix_rfl, hs⟩ hnone ?_ ?_
  · rw [hclock]
    decide
  · rw [hhistory]
    decide

end Login
