import Cine.Grading.Gradebook.StudentBoard
import Cine.Lib.Machine

/-!
# The locks on joining

`exam-session/agent-join-lock.store.ts`: failed joins are counted for each
student number, the fifth failure locks the number, and the teacher is told
of a failure once in a while.  The store is run under any sequence of calls
at times that do not go back.

* `JoinAccount` is what a lock should depend on: the failures since the last
  success or lock, the locks since the last success, and the end of the last
  one.
* The store follows the accounts in every run in which `checkLock` meets no
  expired lock with failures counted behind it (`locks_follow_accounts`): it
  would forget these failures (`late_check_forgets`).
* Notifications are thirty seconds apart in every run in which no success
  comes less than thirty seconds behind one (`notifications_apart`): it
  forgets the notification (`success_forgets_notification`).

`toLowerCase` is a parameter.
-/

namespace Cine.Exam

open Cine.Lib
open Cine.Grading (lowerCase)

/-! ## The store -/

structure LockEntry where
  failureCount : Nat
  /-- The time at which the number may try again. -/
  lockedUntil : Option Nat
  lockStrikes : Nat
  lastNotifiedAt : Nat
deriving DecidableEq, Repr

def newEntry : LockEntry := ⟨0, none, 0, 0⟩

inductive LockStatus
  | locked (retryAfterMs : Nat)
  | free
deriving DecidableEq, Repr

def maxFailures : Nat := 5

def baseLockoutMs : Nat := 5 * 60000

def maxLockoutMs : Nat := 60 * 60000

def notifyThrottleMs : Nat := 30000

abbrev LockEntries := String → Option LockEntry

inductive JoinOp
  | checkLock
  | recordFailure
  | clear
  | shouldNotify
deriving DecidableEq, Repr

/-- A call of the store, with the time of the clock. -/
structure JoinCall where
  time : Nat
  mssv : String
  op : JoinOp
deriving DecidableEq, Repr

inductive JoinAnswer
  | status (s : LockStatus)
  | cleared
  | notify (b : Bool)
deriving DecidableEq, Repr

namespace LockEntries

def checkLock (entries : LockEntries) (key : String) (now : Nat) : LockStatus × LockEntries :=
  match entries key with
  | none => (.free, entries)
  | some entry =>
    match entry.lockedUntil with
    | none => (.free, entries)
    | some lockedUntil =>
      if lockedUntil ≤ now then
        (.free, Function.update entries key
          (some { entry with lockedUntil := none, failureCount := 0 }))
      else (.locked (lockedUntil - now), entries)

def recordFailure (entries : LockEntries) (key : String) (now : Nat) :
    LockStatus × LockEntries :=
  let entry := (entries key).getD newEntry
  match entry.lockedUntil.filter (now < ·) with
  | some lockedUntil => (.locked (lockedUntil - now), Function.update entries key (some entry))
  | none =>
    let entry := { entry with failureCount := entry.failureCount + 1 }
    if entry.failureCount < maxFailures then
      (.free, Function.update entries key (some entry))
    else
      let durationMs := min (baseLockoutMs * 2 ^ entry.lockStrikes) maxLockoutMs
      (.locked durationMs, Function.update entries key
        (some { entry with
          lockedUntil := some (now + durationMs)
          lockStrikes := entry.lockStrikes + 1
          failureCount := 0 }))

def clear (entries : LockEntries) (key : String) : LockEntries :=
  Function.update entries key none

def shouldNotify (entries : LockEntries) (key : String) (now : Nat) : Bool × LockEntries :=
  let entry := (entries key).getD newEntry
  if now - entry.lastNotifiedAt < notifyThrottleMs then
    (false, Function.update entries key (some entry))
  else (true, Function.update entries key (some { entry with lastNotifiedAt := now }))

def answer (entries : LockEntries) (key : String) (now : Nat) : JoinOp → JoinAnswer × LockEntries
  | .checkLock => ((entries.checkLock key now).map .status id)
  | .recordFailure => ((entries.recordFailure key now).map .status id)
  | .clear => (.cleared, entries.clear key)
  | .shouldNotify => ((entries.shouldNotify key now).map .notify id)

end LockEntries

/-- The store, the time of the last call, and the answers so far, the last one
in front. -/
structure JoinStore where
  entries : LockEntries
  clock : Nat
  answers : List (JoinCall × JoinAnswer)

namespace JoinStore

def empty : JoinStore := ⟨fun _ => none, 0, []⟩

variable (toLowerCase : String → String)

def step (s : JoinStore) (call : JoinCall) : JoinStore :=
  let result := s.entries.answer (toLowerCase call.mssv) call.time call.op
  ⟨result.2, call.time, (call, result.1) :: s.answers⟩

/-- The clock does not go back. -/
def inOrder (s : JoinStore) (call : JoinCall) : Prop := s.clock ≤ call.time

instance (s : JoinStore) (call : JoinCall) : Decidable (s.inOrder call) :=
  inferInstanceAs (Decidable (_ ≤ _))

end JoinStore

/-! ## Accounts -/

/-- What the locks of a student number depend on. -/
structure JoinAccount where
  /-- The failures since the last success or the last lock. -/
  failures : Nat
  /-- The locks since the last success. -/
  locks : Nat
  /-- The end of the last lock since the last success. -/
  lockEnd : Option Nat
deriving DecidableEq, Repr

namespace JoinAccount

def new : JoinAccount := ⟨0, 0, none⟩

/-- The length of a lock behind `k` others. -/
def lockLength (k : Nat) : Nat := min (5 * 2 ^ k) 60 * 60000

/-- How long a lock still runs, if one does. -/
def remaining (lockEnd : Option Nat) (now : Nat) : Option Nat :=
  (lockEnd.filter (now < ·)).map (· - now)

def statusOf : Option Nat → LockStatus
  | none => .free
  | some ms => .locked ms

/-- The answer to a call about the lock. -/
def expected (a : JoinAccount) (now : Nat) : JoinOp → Option LockStatus
  | .checkLock => some (statusOf (remaining a.lockEnd now))
  | .recordFailure =>
    match remaining a.lockEnd now with
    | some ms => some (.locked ms)
    | none => some (if a.failures + 1 = 5 then .locked (lockLength a.locks) else .free)
  | .clear => none
  | .shouldNotify => none

/-- The account behind a call: only a success and a failure that is recorded
change it. -/
def next (a : JoinAccount) (now : Nat) : JoinOp → JoinAccount
  | .checkLock => a
  | .recordFailure =>
    match remaining a.lockEnd now with
    | some _ => a
    | none =>
      if a.failures + 1 = 5 then ⟨0, a.locks + 1, some (now + lockLength a.locks)⟩
      else { a with failures := a.failures + 1 }
  | .clear => new
  | .shouldNotify => a

end JoinAccount

namespace JoinStore

variable (toLowerCase : String → String)

/-- The account of a student number behind the calls so far. -/
def account (mssv : String) : List (JoinCall × JoinAnswer) → JoinAccount
  | [] => .new
  | (call, _) :: past =>
    if toLowerCase call.mssv = toLowerCase mssv then
      (account mssv past).next call.time call.op
    else account mssv past

/-- Every answer about a lock is the one that the account of the number gives. -/
def AnswersByAccount : List (JoinCall × JoinAnswer) → Prop
  | [] => True
  | (call, given) :: past =>
    (∀ status, (account toLowerCase call.mssv past).expected call.time call.op = some status →
      given = .status status) ∧ AnswersByAccount past

/-- How long the store keeps a number locked at a time. -/
def remaining (s : JoinStore) (mssv : String) (now : Nat) : Option Nat :=
  (s.entries (toLowerCase mssv)).bind fun entry => JoinAccount.remaining entry.lockedUntil now

/-- The locks of every student number follow its account. -/
structure LocksByAccount (s : JoinStore) : Prop where
  answers : AnswersByAccount toLowerCase s.answers
  locks : ∀ mssv now, s.clock ≤ now → s.remaining toLowerCase mssv now =
    JoinAccount.remaining (account toLowerCase mssv s.answers).lockEnd now

/-- Failures are counted behind a lock that has expired. -/
def failuresBehindLock (entry : LockEntry) (now : Nat) : Bool :=
  entry.lockedUntil.any (· ≤ now) && entry.failureCount ≠ 0

/-- The call forgets no failures: it is no `checkLock` that meets an expired
lock with failures counted behind it. -/
def keepsFailures (s : JoinStore) (call : JoinCall) : Prop :=
  call.op = .checkLock →
    (s.entries (toLowerCase call.mssv)).all (fun e => !failuresBehindLock e call.time) = true

instance (s : JoinStore) (call : JoinCall) : Decidable (s.keepsFailures toLowerCase call) :=
  inferInstanceAs (Decidable (_ → _))

end JoinStore

/-! ## The store follows the accounts -/

/-- The entry of a number and its account, from a time on. -/
structure Tracks (entry : LockEntry) (a : JoinAccount) (clock : Nat) : Prop where
  failures : entry.failureCount = a.failures
  strikes : entry.lockStrikes = a.locks
  few : a.failures < 5
  lock : ∀ now, clock ≤ now →
    JoinAccount.remaining entry.lockedUntil now = JoinAccount.remaining a.lockEnd now

namespace Tracks

open JoinAccount

variable {entry : LockEntry} {a : JoinAccount} {clock now : Nat}

theorem later (h : Tracks entry a clock) (hle : clock ≤ now) : Tracks entry a now :=
  ⟨h.failures, h.strikes, h.few, fun t ht => h.lock t (hle.trans ht)⟩

theorem fresh (clock : Nat) : Tracks newEntry .new clock :=
  ⟨rfl, rfl, by decide, fun _ _ => rfl⟩

theorem remaining_none_of_le {lockedUntil now : Nat} (h : lockedUntil ≤ now) :
    JoinAccount.remaining (some lockedUntil) now = none := by
  simp [JoinAccount.remaining, Option.filter, h]

theorem remaining_of_lt {lockedUntil now : Nat} (h : now < lockedUntil) :
    JoinAccount.remaining (some lockedUntil) now = some (lockedUntil - now) := by
  simp [JoinAccount.remaining, Option.filter, h]

theorem remaining_eq_none_iff {lockEnd : Option Nat} {now : Nat} :
    JoinAccount.remaining lockEnd now = none ↔ lockEnd.filter (now < ·) = none := by
  unfold JoinAccount.remaining
  rw [Option.map_eq_none_iff]

theorem lockLength_eq (k : Nat) :
    min (baseLockoutMs * 2 ^ k) maxLockoutMs = lockLength k := by
  unfold lockLength baseLockoutMs maxLockoutMs
  rw [← Nat.mul_min_mul_right]
  congr 1
  ring

variable {entries : LockEntries} {key : String}

theorem checkLock (h : Tracks ((entries key).getD newEntry) a clock) (hle : clock ≤ now)
    (hkeep : (entries key).all (fun e => !JoinStore.failuresBehindLock e now) = true) :
    (entries.checkLock key now).1 = statusOf (remaining a.lockEnd now) ∧
      Tracks (((entries.checkLock key now).2 key).getD newEntry) a now := by
  unfold LockEntries.checkLock
  have hnow := h.lock now hle
  cases hentry : entries key with
  | none =>
    rw [hentry] at h hnow
    rw [← hnow]
    refine ⟨rfl, ?_⟩
    dsimp only
    rw [hentry]
    exact h.later hle
  | some entry =>
    rw [hentry] at h hnow hkeep
    rw [Option.getD_some] at h hnow
    dsimp only
    cases huntil : entry.lockedUntil with
    | none =>
      rw [huntil] at hnow
      dsimp only
      rw [← hnow, hentry]
      exact ⟨rfl, h.later hle⟩
    | some lockedUntil =>
      rw [huntil] at hnow
      dsimp only
      split_ifs with hexpired
      · rw [remaining_none_of_le hexpired] at hnow
        rw [← hnow]
        refine ⟨rfl, ?_⟩
        dsimp only
        rw [Function.update_self, Option.getD_some]
        have hzero : entry.failureCount = 0 := by
          simpa [JoinStore.failuresBehindLock, huntil, hexpired] using hkeep
        refine ⟨hzero ▸ h.failures, h.strikes, h.few, fun t ht => ?_⟩
        rw [← h.lock t (hle.trans ht), huntil, remaining_none_of_le (hexpired.trans ht)]
        rfl
      · rw [remaining_of_lt (Nat.lt_of_not_le hexpired)] at hnow
        rw [← hnow]
        refine ⟨rfl, ?_⟩
        dsimp only
        rw [hentry]
        exact h.later hle

theorem recordFailure (h : Tracks ((entries key).getD newEntry) a clock) (hle : clock ≤ now) :
    a.expected now .recordFailure = some (entries.recordFailure key now).1 ∧
      Tracks (((entries.recordFailure key now).2 key).getD newEntry) (a.next now .recordFailure)
        now := by
  unfold LockEntries.recordFailure
  generalize (entries key).getD newEntry = entry at h
  have hnow := h.lock now hle
  dsimp only
  cases hrunning : entry.lockedUntil.filter (now < ·) with
  | some lockedUntil =>
    have hremaining : remaining entry.lockedUntil now = some (lockedUntil - now) := by
      rw [remaining, hrunning, Option.map_some]
    rw [hremaining] at hnow
    rw [expected, next, ← hnow]
    refine ⟨rfl, ?_⟩
    dsimp only
    rw [Function.update_self, Option.getD_some]
    exact h.later hle
  | none =>
    have hfree := remaining_eq_none_iff.2 hrunning
    rw [hfree] at hnow
    have hfailures := h.failures
    have hfew := h.few
    rw [expected, next, ← hnow]
    dsimp only
    unfold maxFailures
    by_cases hfifth : a.failures + 1 = 5
    · have hlast : ¬ entry.failureCount + 1 < 5 := by omega
      rw [if_pos hfifth, if_pos hfifth, if_neg hlast, h.strikes, lockLength_eq]
      refine ⟨rfl, ?_⟩
      dsimp only
      rw [Function.update_self, Option.getD_some]
      exact ⟨rfl, rfl, Nat.succ_pos 4, fun _ _ => rfl⟩
    · have hmore : entry.failureCount + 1 < 5 := by omega
      rw [if_neg hfifth, if_neg hfifth, if_pos hmore]
      refine ⟨rfl, ?_⟩
      dsimp only
      rw [Function.update_self, Option.getD_some]
      refine ⟨?_, h.strikes, ?_, fun t ht => h.lock t (hle.trans ht)⟩
      · show entry.failureCount + 1 = a.failures + 1
        omega
      · show a.failures + 1 < 5
        omega

theorem shouldNotify (h : Tracks ((entries key).getD newEntry) a clock) (hle : clock ≤ now) :
    Tracks (((entries.shouldNotify key now).2 key).getD newEntry) a now := by
  unfold LockEntries.shouldNotify
  generalize (entries key).getD newEntry = entry at h
  dsimp only
  split_ifs
  · dsimp only
    rw [Function.update_self, Option.getD_some]
    exact h.later hle
  · dsimp only
    rw [Function.update_self, Option.getD_some]
    exact ⟨h.failures, h.strikes, h.few, fun t ht => h.lock t (hle.trans ht)⟩

theorem answer {op : JoinOp} (h : Tracks ((entries key).getD newEntry) a clock)
    (hle : clock ≤ now) (hkeep : op = .checkLock →
      (entries key).all (fun e => !JoinStore.failuresBehindLock e now) = true) :
    (∀ status, a.expected now op = some status →
      (entries.answer key now op).1 = .status status) ∧
      Tracks (((entries.answer key now op).2 key).getD newEntry) (a.next now op) now := by
  cases op with
  | checkLock =>
    obtain ⟨hanswer, hnext⟩ := h.checkLock hle (hkeep rfl)
    refine ⟨fun status hstatus => ?_, hnext⟩
    cases hstatus
    exact congrArg JoinAnswer.status hanswer
  | recordFailure =>
    obtain ⟨hanswer, hnext⟩ := h.recordFailure hle
    refine ⟨fun status hstatus => ?_, hnext⟩
    rw [hanswer] at hstatus
    exact congrArg JoinAnswer.status (Option.some.inj hstatus)
  | clear =>
    refine ⟨nofun, ?_⟩
    show Tracks ((Function.update entries key none key).getD newEntry) .new now
    rw [Function.update_self]
    exact fresh now
  | shouldNotify => exact ⟨nofun, h.shouldNotify hle⟩

end Tracks

variable {entries : LockEntries} {key : String} {op : JoinOp}

theorem LockEntries.answer_other {other : String} {now : Nat} (h : other ≠ key) :
    (entries.answer key now op).2 other = entries other := by
  cases op with
  | checkLock =>
    show (entries.checkLock key now).2 other = _
    unfold LockEntries.checkLock
    split
    · rfl
    · split
      · rfl
      · split_ifs
        · exact Function.update_of_ne h _ _
        · rfl
  | recordFailure =>
    show (entries.recordFailure key now).2 other = _
    unfold LockEntries.recordFailure
    dsimp only
    split
    · exact Function.update_of_ne h _ _
    · split_ifs
      · exact Function.update_of_ne h _ _
      · exact Function.update_of_ne h _ _
  | clear => exact Function.update_of_ne h _ _
  | shouldNotify =>
    show (entries.shouldNotify key now).2 other = _
    unfold LockEntries.shouldNotify
    dsimp only
    split_ifs
    · exact Function.update_of_ne h _ _
    · exact Function.update_of_ne h _ _

namespace JoinStore

variable {toLowerCase : String → String}

/-- What every call keeps. -/
structure FollowsAccounts (toLowerCase : String → String) (s : JoinStore) : Prop where
  answers : AnswersByAccount toLowerCase s.answers
  entries : ∀ mssv, Tracks ((s.entries (toLowerCase mssv)).getD newEntry)
    (account toLowerCase mssv s.answers) s.clock

theorem FollowsAccounts.locks {s : JoinStore} (h : s.FollowsAccounts toLowerCase) :
    s.LocksByAccount toLowerCase := by
  refine ⟨h.answers, fun mssv now hle => ?_⟩
  rw [← (h.entries mssv).lock now hle]
  unfold remaining
  cases s.entries (toLowerCase mssv) with
  | none => rfl
  | some entry => rfl

theorem account_congr {mssv mssv' : String} (h : toLowerCase mssv = toLowerCase mssv')
    (answers : List (JoinCall × JoinAnswer)) :
    account toLowerCase mssv answers = account toLowerCase mssv' answers := by
  induction answers with
  | nil => rfl
  | cons p past ih => rw [account, account, ih, h]

theorem FollowsAccounts.step {s : JoinStore} {call : JoinCall}
    (h : s.FollowsAccounts toLowerCase) (hle : s.inOrder call)
    (hkeep : s.keepsFailures toLowerCase call) :
    (s.step toLowerCase call).FollowsAccounts toLowerCase := by
  obtain ⟨hanswer, hnext⟩ := (h.entries call.mssv).answer hle hkeep
  refine ⟨⟨hanswer, h.answers⟩, fun mssv => ?_⟩
  show Tracks (((s.entries.answer (toLowerCase call.mssv) call.time call.op).2
    (toLowerCase mssv)).getD newEntry) (if toLowerCase call.mssv = toLowerCase mssv then
      (account toLowerCase mssv s.answers).next call.time call.op
    else account toLowerCase mssv s.answers) call.time
  by_cases hkey : toLowerCase call.mssv = toLowerCase mssv
  · rw [if_pos hkey, ← hkey, ← account_congr hkey]
    exact hnext
  · rw [if_neg hkey, LockEntries.answer_other (Ne.symm hkey)]
    exact (h.entries mssv).later hle

end JoinStore

/-- In a run in which no call forgets failures, the locks of every student
number follow its account. -/
theorem locks_follow_accounts (toLowerCase : String → String) {s : JoinStore}
    (h : Reach (JoinStore.step toLowerCase)
      (fun s call => s.inOrder call ∧ s.keepsFailures toLowerCase call) .empty s) :
    s.LocksByAccount toLowerCase := by
  refine JoinStore.FollowsAccounts.locks (Reach.invariant ?_ ?_ h)
  · exact ⟨trivial, fun mssv => Tracks.fresh 0⟩
  · intro s call hs hok
    exact hs.step hok.1 hok.2

/-- Calls for one student number. -/
def callsAt (mssv : String) (calls : List (Nat × JoinOp)) : List JoinCall :=
  calls.map fun c => ⟨c.1, mssv, c.2⟩

/-- Five failures, the lock, and a failure behind its end. -/
def lockedTwice : List JoinCall :=
  callsAt "SV1" [(1, .recordFailure), (2, .recordFailure), (3, .recordFailure)] ++
    callsAt "sv1" [(4, .recordFailure), (5, .recordFailure), (6, .checkLock),
      (7, .recordFailure), (300005, .checkLock), (300006, .recordFailure)]

theorem lockedTwice_follows :
    (lockedTwice.foldl (JoinStore.step lowerCase) .empty).LocksByAccount lowerCase :=
  locks_follow_accounts lowerCase (reach_foldl (by decide))

/-- The failure at 300005 is forgotten by the check, so the fifth failure
behind the lock does not lock. -/
def lateCheck : List JoinCall :=
  callsAt "SV1" [(1, .recordFailure), (2, .recordFailure), (3, .recordFailure),
    (4, .recordFailure), (5, .recordFailure), (300005, .recordFailure), (300005, .checkLock),
    (300006, .recordFailure), (300007, .recordFailure), (300008, .recordFailure),
    (300009, .recordFailure)]

theorem late_check_forgets :
    ¬ ∀ s, Reach (JoinStore.step lowerCase) JoinStore.inOrder .empty s → s.LocksByAccount lowerCase := by
  intro h
  have hrun : AllAllowed (JoinStore.step lowerCase) JoinStore.inOrder .empty lateCheck := by decide
  have hlocks := h _ (reach_foldl hrun)
  have hlast := hlocks.answers.1 (.locked 600000) (by decide)
  revert hlast
  decide

/-! ## Notifications -/

namespace JoinStore

variable (toLowerCase : String → String)

/-- Any two notifications about a student number are thirty seconds apart. -/
def NotificationsApart (s : JoinStore) : Prop :=
  s.answers.Pairwise fun later earlier =>
    later.2 = .notify true → earlier.2 = .notify true →
      toLowerCase later.1.mssv = toLowerCase earlier.1.mssv →
      earlier.1.time + 30000 ≤ later.1.time

/-- The call forgets no notification: it is no success less than thirty
seconds behind one. -/
def keepsNotification (s : JoinStore) (call : JoinCall) : Prop :=
  call.op = .clear → (s.entries (toLowerCase call.mssv)).all
    (fun e => e.lastNotifiedAt + notifyThrottleMs ≤ call.time) = true

instance (s : JoinStore) (call : JoinCall) : Decidable (s.keepsNotification toLowerCase call) :=
  inferInstanceAs (Decidable (_ → _))

/-- A notification is remembered until thirty seconds have passed. -/
structure Remembers (s : JoinStore) : Prop where
  apart : s.NotificationsApart toLowerCase
  last : ∀ p ∈ s.answers, p.2 = .notify true → p.1.time + notifyThrottleMs ≤ s.clock ∨
    ∃ entry, s.entries (toLowerCase p.1.mssv) = some entry ∧ p.1.time ≤ entry.lastNotifiedAt

end JoinStore

/-- No call but a success forgets a notification. -/
theorem LockEntries.lastNotifiedAt_answer (now : Nat) {entry : LockEntry}
    (hentry : entries key = some entry) (hop : op ≠ .clear) :
    ∃ entry', (entries.answer key now op).2 key = some entry' ∧
      entry.lastNotifiedAt ≤ entry'.lastNotifiedAt := by
  cases op with
  | checkLock =>
    show ∃ entry', (entries.checkLock key now).2 key = some entry' ∧ _
    unfold LockEntries.checkLock
    rw [hentry]
    dsimp only
    split
    · exact ⟨entry, hentry, le_rfl⟩
    · split_ifs
      · exact ⟨_, Function.update_self _ _ _, le_rfl⟩
      · exact ⟨entry, hentry, le_rfl⟩
  | recordFailure =>
    show ∃ entry', (entries.recordFailure key now).2 key = some entry' ∧ _
    unfold LockEntries.recordFailure
    rw [hentry, Option.getD_some]
    dsimp only
    split
    · exact ⟨_, Function.update_self _ _ _, le_rfl⟩
    · split_ifs
      · exact ⟨_, Function.update_self _ _ _, le_rfl⟩
      · exact ⟨_, Function.update_self _ _ _, le_rfl⟩
  | clear => exact absurd rfl hop
  | shouldNotify =>
    show ∃ entry', (entries.shouldNotify key now).2 key = some entry' ∧ _
    unfold LockEntries.shouldNotify
    rw [hentry, Option.getD_some]
    dsimp only
    split_ifs with hsoon
    · exact ⟨_, Function.update_self _ _ _, le_rfl⟩
    · refine ⟨_, Function.update_self _ _ _, ?_⟩
      show entry.lastNotifiedAt ≤ now
      unfold notifyThrottleMs at hsoon
      omega

theorem LockEntries.answer_notify {now : Nat} (h : (entries.answer key now op).1 = .notify true) :
    (∀ entry, entries key = some entry → entry.lastNotifiedAt + notifyThrottleMs ≤ now) ∧
      ∃ entry', (entries.answer key now op).2 key = some entry' ∧
        now ≤ entry'.lastNotifiedAt := by
  cases op with
  | checkLock => cases h
  | recordFailure => cases h
  | clear => cases h
  | shouldNotify =>
    have hnotify : (entries.shouldNotify key now).1 = true := JoinAnswer.notify.inj h
    show _ ∧ ∃ entry', (entries.shouldNotify key now).2 key = some entry' ∧ _
    unfold LockEntries.shouldNotify at hnotify ⊢
    dsimp only at hnotify ⊢
    split_ifs at hnotify ⊢ with hsoon
    refine ⟨fun entry hentry => ?_, _, Function.update_self _ _ _, le_rfl⟩
    rw [hentry, Option.getD_some] at hsoon
    unfold notifyThrottleMs at hsoon ⊢
    omega

namespace JoinStore

variable {toLowerCase : String → String}

theorem Remembers.step {s : JoinStore} {call : JoinCall} (h : s.Remembers toLowerCase)
    (hle : s.inOrder call) (hkeep : s.keepsNotification toLowerCase call) :
    (s.step toLowerCase call).Remembers toLowerCase := by
  have hclock : s.clock ≤ call.time := hle
  constructor
  · refine List.Pairwise.cons ?_ h.apart
    intro p hp hnotify hearlier hkey
    obtain ⟨hwait, -⟩ := LockEntries.answer_notify hnotify
    rcases h.last p hp hearlier with hpast | ⟨entry, hentry, hlast⟩
    · exact hpast.trans hclock
    · exact (Nat.add_le_add_right hlast _).trans (hwait entry (hkey ▸ hentry))
  · intro p hp hnotify
    rcases List.mem_cons.1 hp with rfl | hp
    · obtain ⟨-, entry, hentry, hlast⟩ := LockEntries.answer_notify hnotify
      exact Or.inr ⟨entry, hentry, hlast⟩
    · rcases h.last p hp hnotify with hpast | ⟨entry, hentry, hlast⟩
      · exact Or.inl (hpast.trans hclock)
      · by_cases hkey : toLowerCase p.1.mssv = toLowerCase call.mssv
        · by_cases hop : call.op = .clear
          · have hold := hkeep hop
            rw [← hkey, hentry] at hold
            exact Or.inl ((Nat.add_le_add_right hlast _).trans (of_decide_eq_true hold))
          · rw [hkey] at hentry
            obtain ⟨entry', hentry', hlast'⟩ :=
              LockEntries.lastNotifiedAt_answer call.time hentry hop
            exact Or.inr ⟨entry', by rw [hkey]; exact hentry', hlast.trans hlast'⟩
        · refine Or.inr ⟨entry, ?_, hlast⟩
          exact (LockEntries.answer_other hkey).trans hentry

end JoinStore

/-- In a run in which no call forgets a notification, any two notifications
about a student number are thirty seconds apart. -/
theorem notifications_apart (toLowerCase : String → String) {s : JoinStore}
    (h : Reach (JoinStore.step toLowerCase)
      (fun s call => s.inOrder call ∧ s.keepsNotification toLowerCase call) .empty s) :
    s.NotificationsApart toLowerCase := by
  refine JoinStore.Remembers.apart (Reach.invariant ?_ ?_ h)
  · exact ⟨List.Pairwise.nil, nofun⟩
  · intro s call hs hok
    exact hs.step hok.1 hok.2

/-- Two notifications with a lock and a late success in between. -/
def patientNotices : List JoinCall :=
  callsAt "SV1" [(30000, .shouldNotify), (30001, .recordFailure), (30002, .shouldNotify),
    (60000, .clear), (60001, .shouldNotify)]

theorem patientNotices_apart :
    (patientNotices.foldl (JoinStore.step lowerCase) .empty).NotificationsApart lowerCase :=
  notifications_apart lowerCase (reach_foldl (by decide))

/-- A success between two notifications. -/
def noticeAgain : List JoinCall :=
  callsAt "SV1" [(30000, .shouldNotify), (30001, .clear), (30002, .shouldNotify)]

theorem success_forgets_notification :
    ¬ ∀ s, Reach (JoinStore.step lowerCase) JoinStore.inOrder .empty s → s.NotificationsApart lowerCase := by
  intro h
  have hrun : AllAllowed (JoinStore.step lowerCase) JoinStore.inOrder .empty noticeAgain := by decide
  have hapart := h _ (reach_foldl hrun)
  have hfirst := List.rel_of_pairwise_cons hapart ( List.mem_cons_of_mem _ List.mem_cons_self)
  exact absurd (hfirst rfl rfl rfl) (by decide)

end Cine.Exam
