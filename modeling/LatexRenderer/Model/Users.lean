import LatexRenderer.Machine.Table
import LatexRenderer.Model.Rows

/-! # Users

The rows of `users` and the statements that change them. Every statement that changes what a user may do
raises `security_version`; a credential that was issued under an earlier version is refused from then on.
-/

namespace LatexRenderer

open Machine

inductive UserRole where
  | owner | admin | user
deriving DecidableEq, Repr

inductive UserStatus where
  | active | disabled
deriving DecidableEq, Repr

/-- A row of `users`. -/
structure UserRow where
  id : String
  email : Option String := none
  displayName : String := ""
  role : UserRole := .user
  status : UserStatus := .active
  securityVersion : Nat := 1
  lastLoginAt : Option Timestamp := none
  updatedAt : Timestamp
deriving DecidableEq, Repr

/-- The columns that `UsersRepository.update` can change; the e-mail address may be set to `NULL`. -/
structure UserUpdate where
  email : Option (Option String) := none
  displayName : Option String := none
  role : Option UserRole := none
deriving DecidableEq, Repr

namespace UserRow

def touchLogin (timestamp : Timestamp) (row : UserRow) : Option UserRow :=
  if row.status = .active then some { row with lastLoginAt := some timestamp, updatedAt := timestamp }
  else none

def incrementSecurityVersion (timestamp : Timestamp) (row : UserRow) : Option UserRow :=
  some { row with securityVersion := row.securityVersion + 1, updatedAt := timestamp }

def setStatus (status : UserStatus) (timestamp : Timestamp) (row : UserRow) : Option UserRow :=
  some { row with status := status, securityVersion := row.securityVersion + 1, updatedAt := timestamp }

def update (input : UserUpdate) (timestamp : Timestamp) (row : UserRow) : Option UserRow :=
  some { row with
    email := input.email.getD row.email
    displayName := input.displayName.getD row.displayName
    role := input.role.getD row.role
    securityVersion := row.securityVersion + 1
    updatedAt := timestamp }

/-- The statement of the local `enable-user` commands. -/
def enable (timestamp : Timestamp) (row : UserRow) : Option UserRow :=
  if row.status ≠ .active then
    some { row with status := .active, securityVersion := row.securityVersion + 1, updatedAt := timestamp }
  else none

end UserRow

/-- The statements that change one row of `users`. -/
inductive UserStatement where
  | touchLogin
  | incrementSecurityVersion
  | setStatus (status : UserStatus)
  | update (input : UserUpdate)
  | enable
deriving DecidableEq, Repr

/-- What a statement makes of the row it finds. -/
def UserStatement.apply (timestamp : Timestamp) : UserStatement → UserRow → Option UserRow
  | .touchLogin => UserRow.touchLogin timestamp
  | .incrementSecurityVersion => UserRow.incrementSecurityVersion timestamp
  | .setStatus status => UserRow.setStatus status timestamp
  | .update input => UserRow.update input timestamp
  | .enable => UserRow.enable timestamp

def getUser (users : List UserRow) (id : String) : Option UserRow :=
  users.find? (·.id == id)

/-- The user that a credential names may use it: active, and of the security version of its issue. -/
def UserRow.admits (securityVersion : Nat) (user : UserRow) : Bool :=
  user.status = .active && user.securityVersion = securityVersion

end LatexRenderer
