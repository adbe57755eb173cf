import LatexRenderer.Model.Users

/-! # The tables of the OAuth grants

The rows of `remote_mcp_authorization_codes`, `remote_mcp_token_families` and `remote_mcp_tokens` and the
statements of `RemoteMcpRepository` and of the cleanup script on them. The tables store the SHA-256 of
a secret; the model writes the secret in its place, two secrets being the same when their digests are.
-/

namespace LatexRenderer

open Machine

/-- A row of `remote_mcp_authorization_codes`. -/
structure AuthorizationCodeRow where
  codeHash : String
  clientId : String
  userId : String
  userSecurityVersion : Nat
  redirectUri : String
  scopes : List String
  resource : String
  codeChallenge : String
  createdAt : Timestamp
  expiresAt : Timestamp
  usedAt : Option Timestamp := none
deriving DecidableEq, Repr

/-- A row of `remote_mcp_token_families`. -/
structure TokenFamilyRow where
  id : String
  clientId : String
  userId : String
  userSecurityVersion : Nat
  scopes : List String
  resource : String
  createdAt : Timestamp
  expiresAt : Timestamp
  revokedAt : Option Timestamp := none
deriving DecidableEq, Repr

inductive TokenType where
  | access | refresh
deriving DecidableEq, Repr

/-- A row of `remote_mcp_tokens`. -/
structure TokenRow where
  tokenHash : String
  familyId : String
  tokenType : TokenType
  sequence : Nat
  createdAt : Timestamp
  expiresAt : Timestamp
  usedAt : Option Timestamp := none
  revokedAt : Option Timestamp := none
deriving DecidableEq, Repr

/-- The tables that the OAuth service reads and writes. -/
structure GrantTables where
  users : List UserRow := []
  codes : List AuthorizationCodeRow := []
  families : List TokenFamilyRow := []
  tokens : List TokenRow := []

def AuthorizationCodeRow.consume (timestamp : Timestamp) (row : AuthorizationCodeRow) :
    Option AuthorizationCodeRow :=
  if row.usedAt = none ∧ row.expiresAt > timestamp then some { row with usedAt := some timestamp } else none

def TokenRow.consumeRefresh (timestamp : Timestamp) (row : TokenRow) : Option TokenRow :=
  if row.tokenType = .refresh ∧ row.usedAt = none ∧ row.revokedAt = none ∧ row.expiresAt > timestamp then
    some { row with usedAt := some timestamp }
  else none

/-- `revoked_at=COALESCE(revoked_at,?)` on the family `id`. -/
def TokenFamilyRow.revoke (id : String) (timestamp : Timestamp) (row : TokenFamilyRow) : TokenFamilyRow :=
  if row.id = id then { row with revokedAt := some (row.revokedAt.getD timestamp) } else row

/-- `revoked_at=COALESCE(revoked_at,?)` on the tokens of the family `id`. -/
def TokenRow.revoke (id : String) (timestamp : Timestamp) (row : TokenRow) : TokenRow :=
  if row.familyId = id then { row with revokedAt := some (row.revokedAt.getD timestamp) } else row

namespace GrantTables

def authorizationCode (db : GrantTables) (codeHash : String) : Option AuthorizationCodeRow :=
  db.codes.find? (·.codeHash == codeHash)

/-- `consumeAuthorizationCode`; `none` when no row changes. -/
def consumeAuthorizationCode (codeHash : String) (timestamp : Timestamp) (db : GrantTables) :
    Option GrantTables :=
  (update? (·.codeHash == codeHash) (AuthorizationCodeRow.consume timestamp) db.codes).map fun codes =>
    { db with codes := codes }

/-- The family of a token, which its foreign key names. -/
def family? (db : GrantTables) (id : String) : Option TokenFamilyRow :=
  db.families.find? (·.id == id)

/-- `token`: the row joined with the row of its family. -/
def token (db : GrantTables) (hash : String) : Option (TokenRow × TokenFamilyRow) := do
  let row ← db.tokens.find? (·.tokenHash == hash)
  let family ← db.family? row.familyId
  return (row, family)

/-- `consumeRefresh`; `none` when no row changes. -/
def consumeRefresh (hash : String) (timestamp : Timestamp) (db : GrantTables) : Option GrantTables :=
  (update? (·.tokenHash == hash) (TokenRow.consumeRefresh timestamp) db.tokens).map fun tokens =>
    { db with tokens := tokens }

def revokeFamily (id : String) (timestamp : Timestamp) (db : GrantTables) : GrantTables :=
  { db with
    families := db.families.map (TokenFamilyRow.revoke id timestamp)
    tokens := db.tokens.map (TokenRow.revoke id timestamp) }

/-- `DELETE FROM remote_mcp_authorization_codes WHERE expires_at<=?`. -/
def cleanupCodes (now : Timestamp) (db : GrantTables) : GrantTables :=
  { db with codes := db.codes.filter fun row => !decide (row.expiresAt ≤ now) }

/-- `DELETE FROM remote_mcp_tokens WHERE expires_at<=?`, and, in the cleanup script, also
`OR revoked_at IS NOT NULL`. -/
def cleanupTokens (script : Bool) (now : Timestamp) (db : GrantTables) : GrantTables :=
  { db with tokens := db.tokens.filter fun row =>
      !(decide (row.expiresAt ≤ now) || script && row.revokedAt.isSome) }

/-- The deletion of the expired families that have no token left, and, in the cleanup script, also of the
revoked ones. -/
def cleanupFamilies (script : Bool) (now : Timestamp) (db : GrantTables) : GrantTables :=
  { db with families := db.families.filter fun row =>
      !((decide (row.expiresAt ≤ now) || script && row.revokedAt.isSome) &&
        !db.tokens.any (·.familyId == row.id)) }

end GrantTables

end LatexRenderer
