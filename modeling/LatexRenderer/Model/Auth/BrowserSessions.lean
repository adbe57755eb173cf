import Mathlib.Order.Lattice
import LatexRenderer.Machine.Run

/-! # Browser sessions

A login makes a row of `web_sessions`. A request reads the row of its cookie, checks it, and then either extends its idle
expiry or revokes it; a request that lost its CSRF cookie has its session replaced. A new session deletes what has expired
and revokes the oldest active sessions beyond the limits.
-/

namespace LatexRenderer

open Machine

def maximumActiveSessionsPerUser : Nat := 20

def maximumActiveSessionsGlobal : Nat := 10000

/-- The durations that `BrowserAuthentication` is constructed with, as `boundedDuration` checks them. -/
structure SessionDurations where
  sessionIdleMs : Nat
  sessionAbsoluteMs : Nat
  idle_bounds : 5 * 60 * 1000 ≤ sessionIdleMs ∧ sessionIdleMs ≤ 24 * 60 * 60 * 1000
  absolute_bounds : sessionIdleMs ≤ sessionAbsoluteMs ∧ sessionAbsoluteMs ≤ 7 * 24 * 60 * 60 * 1000

/-- `WebSessionRow`; `loginExpiresAt` notes the absolute expiry fixed at the login that the session goes back to. -/
structure WebSessionRow (κ υ : Type) where
  tokenHash : κ
  userId : υ
  createdAt : Nat
  lastSeenAt : Nat
  idleExpiresAt : Nat
  absoluteExpiresAt : Nat
  revokedAt : Option Nat
  loginExpiresAt : Nat
deriving DecidableEq, Repr

section

variable {κ υ : Type} [LinearOrder κ] [DecidableEq υ]

namespace WebSessionRow

/-- `revoked_at IS NULL AND idle_expires_at>? AND absolute_expires_at>?`. -/
def active (timestamp : Nat) (row : WebSessionRow κ υ) : Bool :=
  row.revokedAt.isNone && decide (timestamp < row.idleExpiresAt) && decide (timestamp < row.absoluteExpiresAt)

/-- `ORDER BY last_seen_at ASC, created_at ASC, token_hash ASC`. -/
def before (first second : WebSessionRow κ υ) : Bool :=
  decide (first.lastSeenAt < second.lastSeenAt) ||
    decide (first.lastSeenAt = second.lastSeenAt) && (decide (first.createdAt < second.createdAt) ||
      decide (first.createdAt = second.createdAt) && decide (first.tokenHash ≤ second.tokenHash))

end WebSessionRow

def activeSessionCountForUser (user : υ) (timestamp : Nat) (rows : List (WebSessionRow κ υ)) : Nat :=
  rows.countP fun row => decide (row.userId = user) && row.active timestamp

def activeSessionCount (timestamp : Nat) (rows : List (WebSessionRow κ υ)) : Nat :=
  rows.countP (·.active timestamp)

/-- The update shared by `revokeOldestActiveSessionsForUser` and `revokeOldestActiveSessions`. -/
def revokeOldest (chosen : WebSessionRow κ υ → Bool) (timestamp maximum : Nat) (rows : List (WebSessionRow κ υ)) :
    List (WebSessionRow κ υ) :=
  let victims := (((rows.filter chosen).mergeSort WebSessionRow.before).take maximum).map (·.tokenHash)
  rows.map fun row => if victims.contains row.tokenHash = true then { row with revokedAt := some timestamp } else row

def revokeOldestActiveSessionsForUser (user : υ) (timestamp maximum : Nat) (rows : List (WebSessionRow κ υ)) :
    List (WebSessionRow κ υ) :=
  revokeOldest (fun row => decide (row.userId = user) && row.active timestamp) timestamp maximum rows

def revokeOldestActiveSessions (timestamp maximum : Nat) (rows : List (WebSessionRow κ υ)) : List (WebSessionRow κ υ) :=
  revokeOldest (·.active timestamp) timestamp maximum rows

def touchSession (tokenHash : κ) (timestamp idleExpiresAt : Nat) (rows : List (WebSessionRow κ υ)) :
    List (WebSessionRow κ υ) :=
  rows.map fun row =>
    if row.tokenHash = tokenHash ∧ row.revokedAt = none then
      { row with
        lastSeenAt := timestamp
        idleExpiresAt := idleExpiresAt }
    else row

/-- `revoked_at` is set where a condition holds and it is not set yet: `revokeSession`, `revokeUserSessions` and
`retireSessionsOutsidePolicy`. -/
def revokeWhere (chosen : WebSessionRow κ υ → Bool) (timestamp : Nat) (rows : List (WebSessionRow κ υ)) :
    List (WebSessionRow κ υ) :=
  rows.map fun row => if chosen row = true then { row with revokedAt := some (row.revokedAt.getD timestamp) } else row

def revokeSession (tokenHash : κ) (timestamp : Nat) (rows : List (WebSessionRow κ υ)) : List (WebSessionRow κ υ) :=
  revokeWhere (fun row => decide (row.tokenHash = tokenHash)) timestamp rows

def revokeUserSessions (userId : υ) (timestamp : Nat) (rows : List (WebSessionRow κ υ)) : List (WebSessionRow κ υ) :=
  revokeWhere (fun row => decide (row.userId = userId)) timestamp rows

/-- `retireSessionsOutsidePolicy`; which sessions lie outside the policy depends on their mode and identity. -/
def retireSessionsOutsidePolicy (outside : κ → Bool) (timestamp : Nat) (rows : List (WebSessionRow κ υ)) :
    List (WebSessionRow κ υ) :=
  revokeWhere (fun row => outside row.tokenHash) timestamp rows

def deleteExpiredSessions (timestamp : Nat) (rows : List (WebSessionRow κ υ)) : List (WebSessionRow κ υ) :=
  rows.filter fun row => !(decide (row.absoluteExpiresAt ≤ timestamp) || decide (row.idleExpiresAt ≤ timestamp) ||
    row.revokedAt.any fun revoked => decide (revoked ≤ timestamp))

/-- `insertSession`: the token is the primary key. -/
def insertSession (row : WebSessionRow κ υ) (rows : List (WebSessionRow κ υ)) : Option (List (WebSessionRow κ υ)) :=
  if rows.any (fun other => decide (other.tokenHash = row.tokenHash)) = true then none else some (rows ++ [row])

/-- `createSession` with the instant it read; `login` is the absolute expiry of the login that a replaced session goes
back to. `none` is the error for an expired identity or of the database. -/
def createSession (durations : SessionDurations) (now : Nat) (token : κ) (user : υ) (capExpiresAt login : Option Nat)
    (rows : List (WebSessionRow κ υ)) : Option (List (WebSessionRow κ υ)) :=
  let absolute := capExpiresAt.elim (now + durations.sessionAbsoluteMs) (min (now + durations.sessionAbsoluteMs))
  if absolute ≤ now then none
  else
    let rows := deleteExpiredSessions now rows
    let activeForUser := activeSessionCountForUser user now rows
    let rows := revokeOldestActiveSessionsForUser user now (activeForUser + 1 - maximumActiveSessionsPerUser) rows
    let activeGlobally := activeSessionCount now rows
    let rows := revokeOldestActiveSessions now (activeGlobally + 1 - maximumActiveSessionsGlobal) rows
    insertSession
      { tokenHash := token
        userId := user
        createdAt := now
        lastSeenAt := now
        idleExpiresAt := min (now + durations.sessionIdleMs) absolute
        absoluteExpiresAt := absolute
        revokedAt := none
        loginExpiresAt := login.getD absolute } rows

end

/-- The table, and the rows that requests have read and still work with. -/
structure BrowserSessions (κ υ : Type) where
  rows : List (WebSessionRow κ υ)
  read : List (WebSessionRow κ υ)
deriving DecidableEq, Repr

/-- The statements and transactions of all processes. Each comes with the instant that its process read for it. -/
inductive SessionEvent (κ υ : Type) where
  | login (now : Nat) (token : κ) (user : υ) (capExpiresAt : Option Nat)
  | getSession (token : κ)
  | touch (now : Nat) (row : WebSessionRow κ υ)
  | revoke (now : Nat) (token : κ)
  | repair (now : Nat) (row : WebSessionRow κ υ) (token : κ)
  | revokeUser (now : Nat) (user : υ)
  | retire (now : Nat) (outside : κ → Bool)
  | cleanup (now : Nat)

section

variable {κ υ : Type} [LinearOrder κ] [DecidableEq υ]

/-- One of them: `authenticateSession` reads a row and touches it when it is active, or revokes its token;
`establishSession` revokes the token and then makes a session of the same user that ends with the row at the latest. -/
def BrowserSessions.step (durations : SessionDurations) (s : BrowserSessions κ υ) :
    SessionEvent κ υ → Option (BrowserSessions κ υ)
  | .login now token user capExpiresAt =>
    (createSession durations now token user capExpiresAt none s.rows).map fun rows => { s with rows := rows }
  | .getSession token =>
    (s.rows.find? fun row => decide (row.tokenHash = token)).map fun row => { s with read := row :: s.read }
  | .touch now row =>
    if row ∈ s.read ∧ row.active now = true then
      some { s with
        rows := touchSession row.tokenHash now (min (now + durations.sessionIdleMs) row.absoluteExpiresAt) s.rows }
    else none
  | .revoke now token => some { s with rows := revokeSession token now s.rows }
  | .repair now row token =>
    if row ∈ s.read then
      (createSession durations now token row.userId (some row.absoluteExpiresAt) (some row.loginExpiresAt) s.rows).map
        fun rows => { s with rows := rows }
    else none
  | .revokeUser now user => some { s with rows := revokeUserSessions user now s.rows }
  | .retire now outside => some { s with rows := retireSessionsOutsidePolicy outside now s.rows }
  | .cleanup now => some { s with rows := deleteExpiredSessions now s.rows }

/-- Any interleaving, from the empty table. -/
def sessionMachine (κ υ : Type) [LinearOrder κ] [DecidableEq υ] (durations : SessionDurations) :
    LabeledMachine (BrowserSessions κ υ) (SessionEvent κ υ) :=
  ofPartial (· = ⟨[], []⟩) (BrowserSessions.step durations)

end

end LatexRenderer
