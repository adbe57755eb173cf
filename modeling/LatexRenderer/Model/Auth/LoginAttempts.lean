import Mathlib.Order.Lattice
import LatexRenderer.Machine.Run

/-! # Login attempts

Failed password logins are counted in `auth_login_attempts`, one row for the login name and one for the address of an
attempt. Five failures in a window block a key. Each failure first deletes rows that have aged and those beyond a maximum,
the ones updated longest ago first.
-/

namespace LatexRenderer

open Machine

def loginWindowMs : Nat := 15 * 60 * 1000

def loginBlockMs : Nat := 15 * 60 * 1000

def loginFailureLimit : Nat := 5

def maximumLoginAttemptRows : Nat := 10000

/-- How long a row is kept after its last update. -/
def loginRetentionMs : Nat := 24 * 60 * 60 * 1000

structure AuthLoginAttemptRow (κ : Type) where
  keyHash : κ
  failureCount : Nat
  windowStartedAt : Nat
  blockedUntil : Option Nat
  updatedAt : Nat
deriving DecidableEq, Repr

section

variable {κ : Type} [LinearOrder κ]

def getLoginAttempt (key : κ) (rows : List (AuthLoginAttemptRow κ)) : Option (AuthLoginAttemptRow κ) :=
  rows.find? fun row => decide (row.keyHash = key)

/-- `putLoginAttempt`: the key column is the primary key. -/
def putLoginAttempt (input : AuthLoginAttemptRow κ) (rows : List (AuthLoginAttemptRow κ)) : List (AuthLoginAttemptRow κ) :=
  if rows.any (fun row => decide (row.keyHash = input.keyHash)) = true then
    rows.map fun row => if row.keyHash = input.keyHash then input else row
  else rows ++ [input]

def clearLoginAttempts (keyHashes : List κ) (rows : List (AuthLoginAttemptRow κ)) : List (AuthLoginAttemptRow κ) :=
  keyHashes.foldl (fun rows hash => rows.filter fun row => !decide (row.keyHash = hash)) rows

/-- `ORDER BY updated_at DESC, key_hash DESC`. -/
def AuthLoginAttemptRow.before (first second : AuthLoginAttemptRow κ) : Bool :=
  decide (second.updatedAt < first.updatedAt) ||
    decide (first.updatedAt = second.updatedAt) && decide (second.keyHash ≤ first.keyHash)

/-- `pruneLoginAttempts`: first the rows that have aged, then those behind the first `maximumRows`. -/
def pruneLoginAttempts (before maximumRows : Nat) (rows : List (AuthLoginAttemptRow κ)) : List (AuthLoginAttemptRow κ) :=
  let rows := rows.filter fun row => !decide (row.updatedAt < before)
  let overflow := ((rows.mergeSort AuthLoginAttemptRow.before).drop maximumRows).map (·.keyHash)
  rows.filter fun row => !overflow.contains row.keyHash

/-- The body of the loop of `recordLoginFailure`. -/
def countLoginFailure (now : Nat) (key : κ) (rows : List (AuthLoginAttemptRow κ)) : List (AuthLoginAttemptRow κ) :=
  let previous := (getLoginAttempt key rows).filter fun row => decide (now < row.windowStartedAt + loginWindowMs)
  let failureCount := previous.elim 1 (·.failureCount + 1)
  putLoginAttempt
    { keyHash := key
      failureCount := failureCount
      windowStartedAt := previous.elim now (·.windowStartedAt)
      blockedUntil := if loginFailureLimit ≤ failureCount then some (now + loginBlockMs) else none
      updatedAt := now } rows

/-- `recordLoginFailure`, one transaction. -/
def recordLoginFailure (now : Nat) (keys : List κ) (rows : List (AuthLoginAttemptRow κ)) : List (AuthLoginAttemptRow κ) :=
  keys.foldl (fun rows key => countLoginFailure now key rows)
    (pruneLoginAttempts (now - loginRetentionMs) (maximumLoginAttemptRows - keys.length) rows)

/-- Whether `assertNotRateLimited` throws. -/
def rateLimited (timestamp : Nat) (keys : List κ) (rows : List (AuthLoginAttemptRow κ)) : Bool :=
  keys.any fun key => ((getLoginAttempt key rows).bind (·.blockedUntil)).any fun blocked => decide (timestamp < blocked)

end

/-- The two keys of an attempt: that of the login name and that of the address. -/
structure LoginAttempt (κ : Type) where
  loginRateKey : κ
  addressRateKey : κ
deriving DecidableEq, Repr

/-- `rateKeys` of `loginPassword`. -/
def LoginAttempt.rateKeys {κ : Type} (attempt : LoginAttempt κ) : List κ := [attempt.loginRateKey, attempt.addressRateKey]

/-- The table, and the attempts whose password is being verified. -/
structure LoginAttempts (κ : Type) where
  rows : List (AuthLoginAttemptRow κ)
  verifying : List (LoginAttempt κ)
deriving DecidableEq, Repr

/-- An attempt passes the check of its keys and fails or succeeds some time later. -/
inductive LoginEvent (κ : Type) where
  | admitted (now : Nat) (attempt : LoginAttempt κ)
  | failed (now : Nat) (attempt : LoginAttempt κ)
  | succeeded (now : Nat) (attempt : LoginAttempt κ)
deriving DecidableEq, Repr

namespace LoginEvent

variable {κ : Type}

/-- When it happens. -/
def now : LoginEvent κ → Nat
  | .admitted now _ => now
  | .failed now _ => now
  | .succeeded now _ => now

/-- The attempt that it is about. -/
def attempt : LoginEvent κ → LoginAttempt κ
  | .admitted _ attempt => attempt
  | .failed _ attempt => attempt
  | .succeeded _ attempt => attempt

end LoginEvent

section

variable {κ : Type} [LinearOrder κ]

/-- The steps of `loginPassword` on the table; a success clears the key of the login name alone. -/
def LoginAttempts.step (s : LoginAttempts κ) : LoginEvent κ → Option (LoginAttempts κ)
  | .admitted now attempt =>
    if rateLimited now attempt.rateKeys s.rows = true then none
    else some { s with verifying := attempt :: s.verifying }
  | .failed now attempt =>
    if attempt ∈ s.verifying then
      some ⟨recordLoginFailure now attempt.rateKeys s.rows, s.verifying.erase attempt⟩
    else none
  | .succeeded _ attempt =>
    if attempt ∈ s.verifying then
      some ⟨clearLoginAttempts [attempt.loginRateKey] s.rows, s.verifying.erase attempt⟩
    else none

/-- Any number of attempts, interleaved in any way. -/
def loginMachine (κ : Type) [LinearOrder κ] : LabeledMachine (LoginAttempts κ) (LoginEvent κ) :=
  ofPartial (· = ⟨[], []⟩) LoginAttempts.step

end

end LatexRenderer
