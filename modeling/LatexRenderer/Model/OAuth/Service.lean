import LatexRenderer.Machine.Run
import LatexRenderer.Model.Admission
import LatexRenderer.Model.OAuth.Grants

/-! # The OAuth service of the remote MCP server

`RemoteOAuthService` of any number of processes over one database: the issue and the exchange of
authorization codes, the rotation of refresh tokens with the replies that each process keeps for a short
overlap, and the verification of access tokens. Requests read the clock before their transaction, so an
action carries its readings, which are instants of the past. `granted` is the history of the token
pairs handed out, and `drawn` what the random source has returned; it returns nothing twice.
-/

namespace LatexRenderer

open Machine

def accessTokenMs : Duration := 10 * 60000

def refreshTokenMs : Duration := 30 * 86400000

def refreshReplayGraceMs : Duration := 30000

def refreshReplyLimit : Nat := 128

def authorizationCodeMs : Duration := 5 * 60000

/-- `OAuthTokenResponse`, less its constant `token_type`. -/
structure OAuthTokenResponse where
  accessToken : String
  expiresIn : Nat
  refreshToken : String
  scope : String
deriving DecidableEq, Repr

/-- `RefreshReply`, with the family it is stored under. -/
structure RefreshReply where
  familyId : String
  response : OAuthTokenResponse
  expiresAt : Timestamp
  accessExpiresAt : Timestamp
deriving DecidableEq, Repr

structure AuthorizationRequest where
  clientId : String
  redirectUri : String
  scopes : List String
  resource : String
  codeChallenge : String
deriving DecidableEq, Repr

/-- The row that `authorize` inserts. -/
def AuthorizationRequest.code (codeHash : String) (user : UserRow) (timestamp expiryNow : Timestamp)
    (request : AuthorizationRequest) : AuthorizationCodeRow where
  codeHash := codeHash
  clientId := request.clientId
  userId := user.id
  userSecurityVersion := user.securityVersion
  redirectUri := request.redirectUri
  scopes := request.scopes
  resource := request.resource
  codeChallenge := request.codeChallenge
  createdAt := timestamp
  expiresAt := expiryNow + authorizationCodeMs

/-- The input of `exchangeAuthorizationCode`, with the S256 challenge of its verifier. -/
structure ExchangeInput where
  code : String
  clientId : String
  redirectUri : String
  actualChallenge : String
  resource : String
deriving DecidableEq, Repr

/-- A request between its reads and its transaction. -/
inductive OAuthCall where
  | authorizing (id : String) (user : UserRow) (request : AuthorizationRequest)
  | exchanging (id : String) (code : AuthorizationCodeRow) (input : ExchangeInput) (timestamp : Timestamp)

/-- What was traded for a token pair. -/
inductive GrantOrigin where
  | code (codeHash : String)
  | refresh (tokenHash : String)
deriving DecidableEq, Repr

/-- A token pair handed out, with the binding of its family and the instant at which the code or the
refresh token was consumed. -/
structure Grant where
  origin : GrantOrigin
  familyId : String
  clientId : String
  resource : String
  sequence : Nat
  timestamp : Timestamp
  accessToken : String
  refreshToken : String
deriving DecidableEq, Repr

/-- The database and the processes of the OAuth service. -/
structure OAuthSystem where
  clock : Timestamp := 0
  db : GrantTables := {}
  replies : String → List RefreshReply := fun _ => []
  calls : List OAuthCall := []
  drawn : List String := []
  granted : List Grant := []

def isActiveToken (token : TokenRow) (family : TokenFamilyRow) (timestamp : Timestamp) : Bool :=
  token.revokedAt.isNone && family.revokedAt.isNone && token.expiresAt > timestamp &&
    family.expiresAt > timestamp

def withinRefreshReplayGrace (usedAt timestamp : Timestamp) : Bool :=
  timestamp ≥ usedAt && timestamp - usedAt < refreshReplayGraceMs

/-- `validateCode`, of a code that was found. -/
def validateCode (code : AuthorizationCodeRow) (input : ExchangeInput) (timestamp : Timestamp) : Bool :=
  code.usedAt.isNone && code.expiresAt > timestamp && code.clientId = input.clientId &&
    code.redirectUri = input.redirectUri && code.resource = input.resource &&
    code.codeChallenge = input.actualChallenge

namespace GrantTables

/-- The user of a code or a family is active and of the security version of its issue. -/
def admits (db : GrantTables) (userId : String) (securityVersion : Nat) : Bool :=
  (getUser db.users userId).any (·.admits securityVersion)

/-- `verifyAccessToken`: the token and the family of an accepted access token. -/
def verifyAccessToken (resource value : String) (timestamp : Timestamp) (db : GrantTables) :
    Option (TokenRow × TokenFamilyRow) :=
  (db.token value).filter fun (token, family) =>
    token.tokenType = .access && isActiveToken token family timestamp && family.resource = resource &&
      db.admits family.userId family.userSecurityVersion

end GrantTables

/-- The secrets and the clock readings of `issueTokens`. -/
structure TokenDraw where
  accessToken : String
  refreshToken : String
  accessNow : Timestamp
  refreshNow : Timestamp
deriving DecidableEq, Repr

/-- The access token that `issueTokens` inserts. -/
def TokenDraw.accessRow (familyId : String) (sequence : Nat) (timestamp : Timestamp) (draw : TokenDraw) :
    TokenRow where
  tokenHash := draw.accessToken
  familyId := familyId
  tokenType := .access
  sequence := sequence
  createdAt := timestamp
  expiresAt := draw.accessNow + accessTokenMs

/-- The refresh token that `issueTokens` inserts. -/
def TokenDraw.refreshRow (familyId : String) (sequence : Nat) (timestamp : Timestamp) (draw : TokenDraw) :
    TokenRow where
  tokenHash := draw.refreshToken
  familyId := familyId
  tokenType := .refresh
  sequence := sequence
  createdAt := timestamp
  expiresAt := draw.refreshNow + refreshTokenMs

/-- `issueTokens`: the tables with the two new rows. -/
def GrantTables.issueTokens (familyId : String) (sequence : Nat) (timestamp : Timestamp)
    (draw : TokenDraw) (db : GrantTables) : GrantTables :=
  { db with tokens := db.tokens ++
      [draw.accessRow familyId sequence timestamp, draw.refreshRow familyId sequence timestamp] }

/-- The response of `issueTokens`. -/
def TokenDraw.response (scopes : List String) (draw : TokenDraw) : OAuthTokenResponse where
  accessToken := draw.accessToken
  expiresIn := accessTokenMs / 1000
  refreshToken := draw.refreshToken
  scope := " ".intercalate scopes

/-- The family that `exchangeAuthorizationCode` inserts for a code. -/
def AuthorizationCodeRow.family (id : String) (timestamp familyNow : Timestamp)
    (code : AuthorizationCodeRow) : TokenFamilyRow where
  id := id
  clientId := code.clientId
  userId := code.userId
  userSecurityVersion := code.userSecurityVersion
  scopes := code.scopes
  resource := code.resource
  createdAt := timestamp
  expiresAt := familyNow + refreshTokenMs

def GrantTables.insertTokenFamily (family : TokenFamilyRow) (db : GrantTables) : GrantTables :=
  { db with families := db.families ++ [family] }

/-- The transaction of `exchangeAuthorizationCode`, for the code row that the request has read; `none` when
it throws. -/
def GrantTables.exchange (code : AuthorizationCodeRow) (timestamp familyNow : Timestamp)
    (familyId : String) (draw : TokenDraw) (db : GrantTables) : Option GrantTables :=
  if db.admits code.userId code.userSecurityVersion then
    (db.consumeAuthorizationCode code.codeHash timestamp).map fun consumed =>
      (consumed.insertTokenFamily (code.family familyId timestamp familyNow)).issueTokens familyId 0
        timestamp draw
  else none

/-- The pair that the exchange of a code hands out. -/
def AuthorizationCodeRow.grant (familyId : String) (timestamp : Timestamp) (draw : TokenDraw)
    (code : AuthorizationCodeRow) : Grant where
  origin := .code code.codeHash
  familyId := familyId
  clientId := code.clientId
  resource := code.resource
  sequence := 0
  timestamp := timestamp
  accessToken := draw.accessToken
  refreshToken := draw.refreshToken

/-- The input of `refresh`, with the process that serves it, its clock readings and its secrets. -/
structure RefreshCall where
  process : String
  refreshToken : String
  clientId : String
  resource : String
  timestamp : Timestamp
  now : Timestamp
  draw : TokenDraw
  replyNow : Timestamp
deriving DecidableEq, Repr

/-- The outcomes of a `refresh` that is refused for good. -/
inductive InvalidGrant where
  | invalid | binding | expired | subjectChanged | reuseRevoked
deriving DecidableEq, Repr

/-- The messages of `INVALID_GRANT`. -/
def InvalidGrant.message : InvalidGrant → String
  | .invalid => "Refresh token is invalid"
  | .binding => "Refresh token binding is invalid"
  | .expired => "Refresh token is expired or revoked"
  | .subjectChanged => "User authorization changed"
  | .reuseRevoked => "Refresh token reuse revoked the grant"

/-- The result of the transaction of `refresh`. -/
inductive RefreshResult where
  | invalid (outcome : InvalidGrant)
  | retry (message : String)
  | replayed (response : OAuthTokenResponse)
  | issued (response : OAuthTokenResponse)
deriving DecidableEq, Repr

namespace RefreshResult

/-- The token pair that a request gets. -/
def response? : RefreshResult → Option OAuthTokenResponse
  | .replayed response | .issued response => some response
  | .invalid _ | .retry _ => none

/-- The error that a request gets. -/
def error? : RefreshResult → Option AppError
  | .invalid outcome => some ⟨"INVALID_GRANT", outcome.message, 400⟩
  | .retry message => some ⟨"OAUTH_REFRESH_RETRY", message, 503⟩
  | .replayed _ | .issued _ => none

end RefreshResult

namespace OAuthSystem

/-- The reply of a process for a family. -/
def reply? (s : OAuthSystem) (process familyId : String) : Option RefreshReply :=
  (s.replies process).find? (·.familyId == familyId)

/-- The replies of one process become these. -/
def withReplies (process : String) (replies : List RefreshReply) (s : OAuthSystem) : OAuthSystem :=
  { s with replies := Function.update s.replies process replies }

def deleteReply (process familyId : String) (s : OAuthSystem) : OAuthSystem :=
  s.withReplies process ((s.replies process).filter fun reply => reply.familyId != familyId)

/-- The deletion of the family's old reply, the eviction of the oldest ones over the limit, and
`refreshReplies.set`. -/
def setReply (process : String) (reply : RefreshReply) (s : OAuthSystem) : OAuthSystem :=
  let kept := (s.replies process).filter fun other => other.familyId != reply.familyId
  s.withReplies process (kept.drop (kept.length + 1 - refreshReplyLimit) ++ [reply])

/-- The reply that may be sent again: still kept, its access token not expired, and its refresh token the
family's unused and active one. -/
def replayable? (s : OAuthSystem) (call : RefreshCall) (familyId : String) : Option RefreshReply :=
  (s.reply? call.process familyId).filter fun reply =>
    reply.expiresAt > call.now && reply.accessExpiresAt > call.now &&
      (s.db.token reply.response.refreshToken).any fun (successor, family) =>
        successor.familyId = familyId && successor.usedAt.isNone &&
          isActiveToken successor family call.timestamp

/-- The branch of `refresh` for a token that was already used. -/
def reuse (call : RefreshCall) (token : TokenRow) (usedAt : Timestamp) (s : OAuthSystem) :
    OAuthSystem × RefreshResult :=
  if withinRefreshReplayGrace usedAt call.timestamp then
    match s.replayable? call token.familyId with
    | some reply => (s, .replayed { reply.response with
        expiresIn := max 1 ((reply.accessExpiresAt - call.now) / 1000) })
    | none => (s, .retry
        "Refresh result is temporarily unavailable; retry with the latest saved token")
  else
    ({ s with db := s.db.revokeFamily token.familyId call.timestamp }.deleteReply call.process
      token.familyId, .invalid .reuseRevoked)

/-- The pair that a rotation of this token hands out. -/
def rotation (call : RefreshCall) (token : TokenRow) (family : TokenFamilyRow) : Grant where
  origin := .refresh call.refreshToken
  familyId := token.familyId
  clientId := family.clientId
  resource := family.resource
  sequence := token.sequence + 1
  timestamp := call.timestamp
  accessToken := call.draw.accessToken
  refreshToken := call.draw.refreshToken

/-- The reply that the process keeps of a rotation. -/
def rotationReply (call : RefreshCall) (token : TokenRow) (family : TokenFamilyRow) : RefreshReply where
  familyId := token.familyId
  response := call.draw.response family.scopes
  expiresAt := call.replyNow + refreshReplayGraceMs
  accessExpiresAt := call.timestamp + accessTokenMs

/-- The system with a pair handed out, whose tables are these. -/
def handOut (grant : Grant) (db : GrantTables) (s : OAuthSystem) : OAuthSystem :=
  { s with
    db := db
    drawn := grant.accessToken :: grant.refreshToken :: s.drawn
    granted := s.granted ++ [grant] }

/-- The branch of `refresh` that rotates the token. -/
def rotate (call : RefreshCall) (token : TokenRow) (family : TokenFamilyRow) (s : OAuthSystem) :
    OAuthSystem × RefreshResult :=
  match s.db.consumeRefresh call.refreshToken call.timestamp with
  | none => (s, .retry "Refresh token is already being retried")
  | some consumed =>
    let issued := consumed.issueTokens token.familyId (token.sequence + 1) call.timestamp call.draw
    ((s.handOut (rotation call token family) issued).setReply call.process
      (rotationReply call token family), .issued (call.draw.response family.scopes))

/-- `refresh`: its transaction, and the reply that the process keeps of an issued pair. -/
def refresh (call : RefreshCall) (s : OAuthSystem) : OAuthSystem × RefreshResult :=
  match s.db.token call.refreshToken with
  | none => (s, .invalid .invalid)
  | some (token, family) =>
    if token.tokenType ≠ .refresh then (s, .invalid .invalid)
    else if family.clientId ≠ call.clientId ∨ family.resource ≠ call.resource then (s, .invalid .binding)
    else if !isActiveToken token family call.timestamp then (s, .invalid .expired)
    else if !s.db.admits family.userId family.userSecurityVersion then
      ({ s with db := s.db.revokeFamily token.familyId call.timestamp }, .invalid .subjectChanged)
    else
      match token.usedAt with
      | some usedAt => s.reuse call token usedAt
      | none => s.rotate call token family

end OAuthSystem

/-- What the processes, the administrators, the cleanup script and the clock do. -/
inductive OAuthAction where
  | advance (clock : Timestamp)
  | insertUser (user : UserRow)
  | updateUser (id : String) (statement : UserStatement) (timestamp : Timestamp)
  | beginAuthorize (id userId : String) (request : AuthorizationRequest)
  | insertCode (id codeHash : String) (timestamp expiryNow : Timestamp)
  | beginExchange (id : String) (input : ExchangeInput) (timestamp : Timestamp)
  | exchange (id codeHash familyId : String) (familyNow : Timestamp) (draw : TokenDraw)
  | refresh (call : RefreshCall)
  | cleanupCodes (now : Timestamp)
  | cleanupTokens (script : Bool) (now : Timestamp)
  | cleanupFamilies (script : Bool) (now : Timestamp)
  | expireReplies (process : String) (now : Timestamp)
  | restart (process : String)
deriving DecidableEq, Repr

/-- The readings of a transaction that starts at this clock follow each other. -/
def TokenDraw.Timed (draw : TokenDraw) (clock : Timestamp) : Prop :=
  clock ≤ draw.accessNow ∧ draw.accessNow ≤ draw.refreshNow

instance (draw : TokenDraw) (clock : Timestamp) : Decidable (draw.Timed clock) := by
  unfold TokenDraw.Timed
  infer_instance

/-- The random source has returned none of these before, and no two of them are the same. -/
def OAuthSystem.fresh (s : OAuthSystem) (values : List String) : Prop :=
  (values ++ s.drawn).Nodup

instance (s : OAuthSystem) (values : List String) : Decidable (s.fresh values) := by
  unfold OAuthSystem.fresh
  infer_instance

/-- The call with an id that has read a user and is about to insert a code. -/
def OAuthSystem.authorizing? (s : OAuthSystem) (id : String) : Option (UserRow × AuthorizationRequest) :=
  s.calls.findSome? fun
    | .authorizing other user request => if other = id then some (user, request) else none
    | .exchanging .. => none

/-- The call with an id that has read and validated a code. -/
def OAuthSystem.exchanging? (s : OAuthSystem) (id : String) :
    Option (AuthorizationCodeRow × ExchangeInput × Timestamp) :=
  s.calls.findSome? fun
    | .exchanging other code input timestamp =>
      if other = id then some (code, input, timestamp) else none
    | .authorizing .. => none

namespace OAuthAction

/-- What an action makes of the system; `none` when it is refused and changes nothing. -/
def step (s : OAuthSystem) : OAuthAction → Option OAuthSystem
  | .advance clock => if s.clock ≤ clock then some { s with clock := clock } else none
  | .insertUser user =>
    if (getUser s.db.users user.id).isNone then
      some { s with db := { s.db with users := s.db.users ++ [user] } }
    else none
  | .updateUser id statement timestamp =>
    (update? (·.id == id) (statement.apply timestamp) s.db.users).map fun users =>
      { s with db := { s.db with users := users } }
  | .beginAuthorize id userId request => do
    let user ← (getUser s.db.users userId).filter (·.status = .active)
    return { s with calls := .authorizing id user request :: s.calls }
  | .insertCode id codeHash timestamp expiryNow => do
    let (user, request) ← s.authorizing? id
    if s.fresh [codeHash] ∧ timestamp ≤ expiryNow ∧ expiryNow ≤ s.clock then
      some { s with
        drawn := codeHash :: s.drawn
        db := { s.db with codes := s.db.codes ++ [request.code codeHash user timestamp expiryNow] } }
    else none
  | .beginExchange id input timestamp => do
    let code ← (s.db.authorizationCode input.code).filter (validateCode · input timestamp)
    if timestamp ≤ s.clock then some { s with calls := .exchanging id code input timestamp :: s.calls }
    else none
  | .exchange id codeHash familyId familyNow draw => do
    let (code, _, timestamp) ← s.exchanging? id
    if code.codeHash = codeHash ∧ s.fresh [familyId, draw.accessToken, draw.refreshToken] ∧
        s.clock ≤ familyNow ∧ draw.Timed familyNow then
      (s.db.exchange code timestamp familyNow familyId draw).map fun db =>
        { s with clock := draw.refreshNow, drawn := familyId :: s.drawn }.handOut
          (code.grant familyId timestamp draw) db
    else none
  | .refresh call =>
    if call.timestamp ≤ s.clock ∧ s.clock ≤ call.now ∧ call.draw.Timed call.now ∧
        s.fresh [call.draw.accessToken, call.draw.refreshToken] then
      some { (s.refresh call).1 with clock := call.draw.refreshNow }
    else none
  | .cleanupCodes now => if now ≤ s.clock then some { s with db := s.db.cleanupCodes now } else none
  | .cleanupTokens script now =>
    if now ≤ s.clock then some { s with db := s.db.cleanupTokens script now } else none
  | .cleanupFamilies script now =>
    if now ≤ s.clock then some { s with db := s.db.cleanupFamilies script now } else none
  | .expireReplies process now =>
    some (s.withReplies process ((s.replies process).filter fun reply => reply.expiresAt > now))
  | .restart process => some (s.withReplies process [])

end OAuthAction

/-- The OAuth service from a database without a grant, whatever its users. -/
def oauthMachine : LabeledMachine OAuthSystem OAuthAction :=
  ofPartial (fun s => ∃ clock users, s = { clock := clock, db := { users := users } }) OAuthAction.step

end LatexRenderer
