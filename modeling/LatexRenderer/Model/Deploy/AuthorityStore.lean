import LatexRenderer.Machine.Fallible
import LatexRenderer.Machine.Run
import LatexRenderer.Model.Deploy.LanAddress

/-! # The store of the LAN HTTPS authority

Six tables, and operations that are one transaction each: it deletes what has expired, consumes the nonce of
the request, checks a limit and inserts, and when it fails everything is as before. Secrets stand for their
hashes.
-/

namespace LatexRenderer

open Machine

/-- The alphabet of base64url. -/
def base64UrlValue (c : Char) : Option Nat :=
  if c.isUpper then some (c.toNat - 'A'.toNat)
  else if c.isLower then some (c.toNat - 'a'.toNat + 26)
  else if c.isDigit then some (c.toNat - '0'.toNat + 52)
  else if c = '-' then some 62
  else if c = '_' then some 63
  else none

/-- The characters of `[A-Za-z0-9_-]`. -/
def base64UrlChar (c : Char) : Bool := (base64UrlValue c).isSome

/-- `strictBase64Url`: the bits of the last character that no byte uses are zero. -/
def strictBase64Url (bytes : Nat) (text : Text) : Bool :=
  decide (text.length = (8 * bytes + 5) / 6) && text.all base64UrlChar &&
    (text.getLast?.bind base64UrlValue).any fun value => value % 2 ^ (6 * text.length - 8 * bytes) = 0

/-- `lanHttpsPublicIdentity`'s key: the 32 bytes of an Ed25519 public key. -/
abbrev PublicKey : Type := BitVec 256

/-- The canonical JSON of a P-256 public key. -/
abbrev AcmeKey : Type := Text

/-- How installations come to be registered. -/
inductive Registration where
  | «open»
  | invite
deriving DecidableEq, Repr

/-- The limits of the authority. -/
structure AuthorityLimits where
  maxInstallations : Nat
  maxNonces : Nat
  maxNoncesPerInstallation : Nat
  nonceTtlMs : Nat
  maxChallenges : Nat
  maxChallengesPerInstallation : Nat
  challengeTtlMs : Nat
  maxInvites : Nat
deriving DecidableEq, Repr

def lanHttpsAuthorityDefaults : AuthorityLimits where
  maxInstallations := 4096
  maxNonces := 512
  maxNoncesPerInstallation := 4
  nonceTtlMs := 120000
  maxChallenges := 128
  maxChallengesPerInstallation := 4
  challengeTtlMs := 600000
  maxInvites := 256

/-- A policy, with the hostname of its server origin and with its domain as it was normalized. -/
structure AuthorityPolicy where
  serverOrigin : Text
  apiHostname : Text
  lanDomain : Text
  registration : Registration
  limits : AuthorityLimits
  normalized : normalizeLanHttpsDomain lanDomain = .ok lanDomain

/-- The errors of the authority. -/
inductive AuthorityError where
  | invalidRequest
  | keyRejected
  | invalidIdentity
  | managementNameTooLong
  | clockInvalid
  | nonceCapacity
  | authenticationRejected
  | installationRejected
  | installationCapacity
  | invitationRequired
  | invitationRejected
  | invitationNotRequired
  | invitationsDisabled
  | invalidInvitationLimits
  | invitationCapacity
  | issuerNotConfigured
  | acmeAccountKeyAlreadyBound
  | acmeIssuerCapacity
  | bindingRejected
  | keylessHostnameRejected
  | invalidKeylessRequest
  | invalidChallenge
  | hostnameNotAuthorized
  | challengeCapacity
  | operatorChallengeRejected
  | operatorChallengeCapacity
  | database
deriving DecidableEq, Repr

/-- The code and the status of an error; none for an error of a library. -/
def AuthorityError.code : AuthorityError → Option (String × Nat)
  | .invalidRequest => some ("invalid_request", 400)
  | .keyRejected => none
  | .invalidIdentity => some ("invalid_identity", 400)
  | .managementNameTooLong => some ("management_name_too_long", 400)
  | .clockInvalid => some ("authority_clock_invalid", 503)
  | .nonceCapacity => some ("nonce_capacity", 429)
  | .authenticationRejected => some ("authentication_rejected", 401)
  | .installationRejected => some ("installation_rejected", 403)
  | .installationCapacity => some ("installation_capacity", 429)
  | .invitationRequired => some ("invitation_required", 403)
  | .invitationRejected => some ("invitation_rejected", 403)
  | .invitationNotRequired => some ("invitation_not_required", 400)
  | .invitationsDisabled => some ("invitations_disabled", 400)
  | .invalidInvitationLimits => some ("invalid_invitation_limits", 400)
  | .invitationCapacity => some ("invitation_capacity", 429)
  | .issuerNotConfigured => some ("issuer_not_configured", 400)
  | .acmeAccountKeyAlreadyBound => some ("acme_account_key_already_bound", 409)
  | .acmeIssuerCapacity => some ("acme_issuer_capacity", 429)
  | .bindingRejected => none
  | .keylessHostnameRejected => some ("keyless_hostname_rejected", 403)
  | .invalidKeylessRequest => some ("invalid_keyless_request", 400)
  | .invalidChallenge => some ("invalid_challenge", 400)
  | .hostnameNotAuthorized => some ("hostname_not_authorized", 403)
  | .challengeCapacity => some ("challenge_capacity", 429)
  | .operatorChallengeRejected => some ("operator_challenge_rejected", 400)
  | .operatorChallengeCapacity => some ("operator_challenge_capacity", 429)
  | .database => none

/-- A row of `authority_installations`. -/
structure AuthorityInstallation where
  id : InstallationId
  publicKey : PublicKey
  createdAt : Timestamp
  lastSeen : Timestamp
  revoked : Bool
deriving DecidableEq, Repr

/-- A row of `authority_nonces`. -/
structure AuthorityNonce where
  nonce : Text
  installationId : InstallationId
  expiresAt : Timestamp
deriving DecidableEq, Repr

/-- A row of `authority_acme_accounts`. -/
structure AuthorityAccount where
  installationId : InstallationId
  issuerId : Text
  publicKey : AcmeKey
  createdAt : Timestamp
deriving DecidableEq, Repr

/-- A row of `authority_invites`. -/
structure AuthorityInvite where
  code : Text
  expiresAt : Timestamp
  remaining : Nat
deriving DecidableEq, Repr

/-- A row of `authority_challenges`. -/
structure AuthorityChallenge where
  id : Text
  installationId : InstallationId
  name : Text
  value : Text
  expiresAt : Timestamp
deriving DecidableEq, Repr

/-- A row of `authority_operator_challenges`. -/
structure OperatorChallenge where
  name : Text
  value : Text
  expiresAt : Timestamp
deriving DecidableEq, Repr

/-- `POST` of a body to a path of the authority, as it is signed. -/
structure AuthorityMessage (Body : Type) where
  audience : Text
  nonce : Text
  path : Text
  body : Body
deriving DecidableEq, Repr

/-- A proof of a request. -/
structure AuthorityProof where
  installationId : InstallationId
  nonce : Text
  signature : Text
deriving DecidableEq, Repr

/-- A request that was committed, and when. -/
structure AuthorisedRequest (Body : Type) where
  installationId : InstallationId
  publicKey : PublicKey
  message : AuthorityMessage Body
  signature : Text
  time : Timestamp
deriving DecidableEq, Repr

/-- The tables. The last four fields keep what was committed, the newest first: the nonces that were issued, the
requests that consumed one, the uses of each invite, and the installations with the invite they came by. -/
structure AuthorityStore (Body : Type) where
  installations : List AuthorityInstallation
  nonces : List AuthorityNonce
  accounts : List AuthorityAccount
  invites : List AuthorityInvite
  challenges : List AuthorityChallenge
  operatorChallenges : List OperatorChallenge
  issued : List AuthorityNonce
  authorised : List (AuthorisedRequest Body)
  invited : List (Text × Nat)
  enrolled : List (InstallationId × Option Text)
deriving DecidableEq, Repr

/-- An invitation code in a request. -/
inductive InvitationField where
  | absent
  | other
  | text (code : Text)
deriving DecidableEq, Repr

/-- The body of `enroll`; the key is missing when it is not an Ed25519 public key. -/
structure EnrollInput where
  publicKey : Option PublicKey
  invitationCode : InvitationField
deriving DecidableEq, Repr

/-- The body of `bindAcmeAccount`; the key is missing when it is not a P-256 public key. -/
structure BindInput where
  issuer : Option Text
  publicKey : Option AcmeKey
deriving DecidableEq, Repr

/-- The body of `authorizeKeyless`. -/
structure KeylessInput where
  hostname : Option Text
  keyId : Option Text
  digest : Option Text
deriving DecidableEq, Repr

/-- The body of `presentChallenge`. -/
structure PresentInput where
  hostname : Option Text
  value : Option Text
deriving DecidableEq, Repr

/-- What the store takes from its runtime: lower case, the hash of a public key, the verification of a
signature and the reading of a request body as JSON. -/
structure AuthorityRuntime (Body : Type) where
  toLowerCase : Text → Text
  installationId : PublicKey → InstallationId
  verify : PublicKey → AuthorityMessage Body → Text → Bool
  enrollBody : Body → Option EnrollInput
  bindBody : Body → Option BindInput
  keylessBody : Bool → Body → Option KeylessInput
  presentBody : Body → Option PresentInput
  removeBody : Body → Option (Option Text)

section Store

variable {Body : Type}

def AuthorityStore.prune (now : Timestamp) (s : AuthorityStore Body) : AuthorityStore Body :=
  { s with
    operatorChallenges := s.operatorChallenges.filter fun row => now < row.expiresAt
    nonces := s.nonces.filter fun row => now < row.expiresAt
    invites := s.invites.filter fun row => now < row.expiresAt && row.remaining ≠ 0
    challenges := s.challenges.filter fun row => now < row.expiresAt }

/-- `#transaction`; when it fails, nothing was changed. -/
def AuthorityStore.transaction {α : Type} (clock : Option Timestamp)
    (action : Timestamp → AuthorityStore Body → Except AuthorityError (α × AuthorityStore Body))
    (s : AuthorityStore Body) : Except AuthorityError (α × AuthorityStore Body) := do
  let now ← obtain? clock .clockInvalid
  action now (s.prune now)

/-- The nonces of an installation. -/
def AuthorityStore.noncesOf (id : InstallationId) (s : AuthorityStore Body) : Nat :=
  s.nonces.countP fun row => row.installationId = id

/-- The challenges of an installation. -/
def AuthorityStore.challengesOf (id : InstallationId) (s : AuthorityStore Body) : Nat :=
  s.challenges.countP fun row => row.installationId = id

/-- The row of an installation. -/
def AuthorityStore.installation (id : InstallationId) (s : AuthorityStore Body) : Option AuthorityInstallation :=
  s.installations.find? fun row => row.id = id

/-- `UPDATE authority_installations SET … WHERE id=?`. -/
def AuthorityStore.setInstallation (id : InstallationId) (change : AuthorityInstallation → AuthorityInstallation)
    (s : AuthorityStore Body) : AuthorityStore Body :=
  { s with installations := s.installations.map fun row => if row.id = id then change row else row }

/-- What a call returns. -/
inductive AuthorityResult where
  | counts (installations nonces invites challenges : Nat)
  | nonce (installationId : InstallationId) (nonce : Text) (expiresAt : Timestamp)
  | enrolled (installationId : InstallationId) (created : Bool)
  | invite (code : Text) (expiresAt : Timestamp) (uses : Nat)
  | bound (issuer : Text) (externalAccountBinding : Option Text)
  | keyless (input : KeylessInput)
  | challenge (id : Text) (expiresAt : Timestamp)
  | removed (removed : Bool)
  | operator (name : Text) (expiresAt : Timestamp)
  | revoked
deriving DecidableEq, Repr

/-- A transaction on the store. -/
abbrev AuthorityTransaction (Body : Type) : Type :=
  AuthorityStore Body → Except AuthorityError (AuthorityResult × AuthorityStore Body)

def AuthorityStore.gc (clock : Option Timestamp) : AuthorityTransaction Body :=
  AuthorityStore.transaction clock fun _ s =>
    .ok (.counts s.installations.length s.nonces.length s.invites.length s.challenges.length, s)

/-- `issueNonce`, with the random nonce. -/
def issueNonce (runtime : AuthorityRuntime Body) (policy : AuthorityPolicy) (publicKey : Option PublicKey)
    (nonce : Text) (clock : Option Timestamp) (s : AuthorityStore Body) :
    Except AuthorityError (AuthorityResult × AuthorityStore Body) := do
  let key ← obtain? publicKey .keyRejected
  let id := runtime.installationId key
  s.transaction clock fun now s => do
    demand (s.nonces.length < policy.limits.maxNonces ∧ s.noncesOf id < policy.limits.maxNoncesPerInstallation)
      .nonceCapacity
    demand (∀ row ∈ s.nonces, row.nonce ≠ nonce) .database
    let expiresAt := now + policy.limits.nonceTtlMs
    pure (.nonce id nonce expiresAt, { s with
      nonces := s.nonces ++ [⟨nonce, id, expiresAt⟩]
      issued := ⟨nonce, id, expiresAt⟩ :: s.issued })

def verifyLanHttpsProof (runtime : AuthorityRuntime Body) (publicKey : PublicKey) (proof : AuthorityProof)
    (message : AuthorityMessage Body) : Bool :=
  decide (proof.installationId = runtime.installationId publicKey) && decide (proof.nonce = message.nonce) &&
    strictBase64Url 64 proof.signature && strictBase64Url 32 message.nonce &&
    runtime.verify publicKey message proof.signature

/-- The nonce of the installation that has not expired. -/
def AuthorityNonce.usable (nonce : Text) (id : InstallationId) (now : Timestamp) (row : AuthorityNonce) : Bool :=
  decide (row.nonce = nonce) && decide (row.installationId = id) && decide (now < row.expiresAt)

def consumeNonce (runtime : AuthorityRuntime Body) (policy : AuthorityPolicy) (publicKey : PublicKey)
    (proof : Option AuthorityProof) (path : Text) (body : Body) (now : Timestamp) (s : AuthorityStore Body) :
    Except AuthorityError (InstallationId × AuthorityStore Body) := do
  let proof ← obtain? proof .authenticationRejected
  let message : AuthorityMessage Body := ⟨policy.serverOrigin, proof.nonce, path, body⟩
  demand (verifyLanHttpsProof runtime publicKey proof message) .authenticationRejected
  let id := runtime.installationId publicKey
  demand (s.nonces.countP (AuthorityNonce.usable proof.nonce id now) = 1) .authenticationRejected
  pure (id, { s with
    nonces := s.nonces.filter fun row => !row.usable proof.nonce id now
    authorised := ⟨id, publicKey, message, proof.signature, now⟩ :: s.authorised })

/-- The use of an invite that has not expired. -/
def AuthorityInvite.use (code : Text) (now : Timestamp) (row : AuthorityInvite) : AuthorityInvite :=
  if row.code = code ∧ now < row.expiresAt ∧ 0 < row.remaining then { row with remaining := row.remaining - 1 }
  else row

/-- The invitation of an enrolment. -/
def useInvitation (policy : AuthorityPolicy) (field : InvitationField) (now : Timestamp) (s : AuthorityStore Body) :
    Except AuthorityError (Option Text × AuthorityStore Body) :=
  match policy.registration, field with
  | .open, .absent => .ok (none, s)
  | .open, _ => .error .invitationNotRequired
  | .invite, .text code => do
    demand (code.length = 43 ∧ code.all base64UrlChar) .invitationRequired
    demand (s.invites.countP (fun row => row.code = code ∧ now < row.expiresAt ∧ 0 < row.remaining) = 1)
      .invitationRejected
    pure (some code, { s with invites := s.invites.map (AuthorityInvite.use code now) })
  | .invite, _ => .error .invitationRequired

def enroll (runtime : AuthorityRuntime Body) (policy : AuthorityPolicy) (body : Body) (proof : Option AuthorityProof)
    (clock : Option Timestamp) (s : AuthorityStore Body) :
    Except AuthorityError (AuthorityResult × AuthorityStore Body) := do
  let input ← obtain? (runtime.enrollBody body) .invalidRequest
  let key ← obtain? input.publicKey .keyRejected
  let id := runtime.installationId key
  s.transaction clock fun now s => do
    let (_, s) ← consumeNonce runtime policy key proof "/v1/enroll".toList body now s
    match s.installation id with
    | some existing => do
      demand (existing.revoked = false ∧ existing.publicKey = key) .installationRejected
      pure (.enrolled id false, s.setInstallation id fun row => { row with lastSeen := now })
    | none => do
      demand (s.installations.length < policy.limits.maxInstallations) .installationCapacity
      let (code, s) ← useInvitation policy input.invitationCode now s
      pure (.enrolled id true, { s with
        installations := s.installations ++ [⟨id, key, now, now, false⟩]
        enrolled := (id, code) :: s.enrolled })

/-- `createInvite`, with the random code. -/
def createInvite (policy : AuthorityPolicy) (uses ttlMs : Nat) (code : Text) (clock : Option Timestamp)
    (s : AuthorityStore Body) : Except AuthorityError (AuthorityResult × AuthorityStore Body) := do
  demand (policy.registration = .invite) .invitationsDisabled
  demand (1 ≤ uses ∧ uses ≤ 100 ∧ 1 ≤ ttlMs ∧ ttlMs ≤ 31 * 86400000) .invalidInvitationLimits
  s.transaction clock fun now s => do
    demand (s.invites.length < policy.limits.maxInvites) .invitationCapacity
    demand (∀ row ∈ s.invites, row.code ≠ code) .database
    pure (.invite code (now + ttlMs) uses, { s with
      invites := s.invites ++ [⟨code, now + ttlMs, uses⟩]
      invited := (code, uses) :: s.invited })

def authenticated (runtime : AuthorityRuntime Body) (policy : AuthorityPolicy) (proof : Option AuthorityProof)
    (path : Text) (body : Body)
    (action : InstallationId → Timestamp → AuthorityStore Body →
      Except AuthorityError (AuthorityResult × AuthorityStore Body))
    (clock : Option Timestamp) (s : AuthorityStore Body) :
    Except AuthorityError (AuthorityResult × AuthorityStore Body) :=
  s.transaction clock fun now s => do
    let claimed ← obtain? proof .authenticationRejected
    let row ← obtain? (s.installation claimed.installationId) .authenticationRejected
    demand (row.revoked = false) .authenticationRejected
    let (id, s) ← consumeNonce runtime policy row.publicKey proof path body now s
    let (result, s) ← action id now s
    pure (result, s.setInstallation id fun row => { row with lastSeen := now })

/-- An issuer of the configuration, with what its external account binding makes of a key. -/
structure AuthorityIssuer where
  id : Option Text
  binding : AcmeKey → Except Unit (Option Text)

/-- `/^[a-z][a-z0-9-]{0,31}$/`. -/
def issuerName : Text → Bool
  | [] => false
  | first :: rest => first.isLower && decide (rest.length ≤ 31) &&
      rest.all fun c => c.isLower || c.isDigit || c == '-'

/-- The account of an installation with an issuer. -/
def AuthorityStore.account (id : InstallationId) (issuer : Text) (s : AuthorityStore Body) :
    Option AuthorityAccount :=
  s.accounts.find? fun row => decide (row.installationId = id) && decide (row.issuerId = issuer)

/-- The key of the account: the one that is bound, or this one from now on. -/
def bindAccountKey (id : InstallationId) (issuer : Text) (key : AcmeKey) (now : Timestamp) (s : AuthorityStore Body) :
    Except AuthorityError (AuthorityStore Body) :=
  match s.account id issuer with
  | some existing => do
    demand (existing.publicKey = key) .acmeAccountKeyAlreadyBound
    pure s
  | none => do
    demand (s.accounts.countP (fun row => row.installationId = id) < 4) .acmeIssuerCapacity
    pure { s with accounts := s.accounts ++ [⟨id, issuer, key, now⟩] }

def bindAcmeAccount (runtime : AuthorityRuntime Body) (policy : AuthorityPolicy) (body : Body)
    (proof : Option AuthorityProof) (issuer : AuthorityIssuer) (clock : Option Timestamp) (s : AuthorityStore Body) :
    Except AuthorityError (AuthorityResult × AuthorityStore Body) := do
  let input ← obtain? (runtime.bindBody body) .invalidRequest
  let name ← obtain? issuer.id .issuerNotConfigured
  demand (issuerName name ∧ input.issuer = some name) .issuerNotConfigured
  let key ← obtain? input.publicKey .keyRejected
  authenticated runtime policy proof "/v1/acme/bind".toList body (fun id now s => do
    let s ← bindAccountKey id name key now s
    match issuer.binding key with
    | .ok binding => pure (.bound name binding, s)
    | .error _ => throw .bindingRejected) clock s

/-- `/^[a-f0-9]{64}$/`. -/
def keyIdText (text : Text) : Bool := decide (text.length = 64) && text.all hexLower

def authorizeKeyless (runtime : AuthorityRuntime Body) (policy : AuthorityPolicy) (body : Body)
    (proof : Option AuthorityProof) (signing : Bool) (clock : Option Timestamp) (s : AuthorityStore Body) :
    Except AuthorityError (AuthorityResult × AuthorityStore Body) := do
  let input ← obtain? (runtime.keylessBody signing body) .invalidRequest
  demand (input.hostname.any fun hostname =>
    (lanHttpsAddress runtime.toLowerCase hostname policy.lanDomain).isOk) .keylessHostnameRejected
  demand (signing = true → input.keyId.any keyIdText ∧ input.digest.any (strictBase64Url 32)) .invalidKeylessRequest
  authenticated runtime policy proof (if signing then "/v1/keyless/sign".toList else "/v1/keyless/certificate".toList)
    body (fun _ _ s => .ok (.keyless input, s)) clock s

/-- `_acme-challenge.` before a name. -/
def challengeName (hostname : Text) : Text := "_acme-challenge.".toList ++ hostname

/-- The management hostname of an installation, with the errors of the authority. -/
def managementHostname (policy : AuthorityPolicy) (id : InstallationId) : Except AuthorityError Text :=
  match lanHttpsManagementHostname id policy.lanDomain with
  | .ok own => .ok own
  | .error .tooLong => .error .managementNameTooLong
  | .error .domain => .error .invalidIdentity

/-- Whether the installation may have a challenge for the hostname. -/
def authorizeHostname (runtime : AuthorityRuntime Body) (policy : AuthorityPolicy) (id : InstallationId)
    (hostname : Text) : Except AuthorityError Unit := do
  let own ← managementHostname policy id
  demand (hostname = own ∨ (lanHttpsAddress runtime.toLowerCase hostname policy.lanDomain).isOk)
    .hostnameNotAuthorized
  demand (hostname = runtime.toLowerCase hostname ∧ hostname.length + 16 ≤ 253) .hostnameNotAuthorized

/-- `presentChallenge`, with the random id. -/
def presentChallenge (runtime : AuthorityRuntime Body) (policy : AuthorityPolicy) (body : Body)
    (proof : Option AuthorityProof) (challengeId : Text) (clock : Option Timestamp) (s : AuthorityStore Body) :
    Except AuthorityError (AuthorityResult × AuthorityStore Body) := do
  let input ← obtain? (runtime.presentBody body) .invalidRequest
  let hostname ← obtain? input.hostname .invalidChallenge
  let value ← obtain? input.value .invalidChallenge
  demand (strictBase64Url 32 value) .invalidChallenge
  authenticated runtime policy proof "/v1/challenge/present".toList body (fun id now s => do
    authorizeHostname runtime policy id hostname
    let name := challengeName hostname
    match s.challenges.find? fun row => row.installationId = id ∧ row.name = name ∧ row.value = value with
    | some existing => pure (.challenge existing.id existing.expiresAt, s)
    | none => do
      demand (s.challenges.length < policy.limits.maxChallenges ∧
        s.challengesOf id < policy.limits.maxChallengesPerInstallation) .challengeCapacity
      demand (∀ row ∈ s.challenges, row.id ≠ challengeId) .database
      let expiresAt := now + policy.limits.challengeTtlMs
      pure (.challenge challengeId expiresAt,
        { s with challenges := s.challenges ++ [⟨challengeId, id, name, value, expiresAt⟩] })) clock s

/-- `/^[0-9a-f]{32}$/`. -/
def challengeIdText (text : Text) : Bool := decide (text.length = 32) && text.all hexLower

def removeChallenge (runtime : AuthorityRuntime Body) (policy : AuthorityPolicy) (body : Body)
    (proof : Option AuthorityProof) (clock : Option Timestamp) (s : AuthorityStore Body) :
    Except AuthorityError (AuthorityResult × AuthorityStore Body) := do
  let input ← obtain? (runtime.removeBody body) .invalidRequest
  let challengeId ← obtain? input .invalidChallenge
  demand (challengeIdText challengeId) .invalidChallenge
  authenticated runtime policy proof "/v1/challenge/remove".toList body (fun id _ s =>
    .ok (.removed (s.challenges.countP (fun row => row.id = challengeId ∧ row.installationId = id) = 1),
      { s with challenges := s.challenges.filter fun row => ¬ (row.id = challengeId ∧ row.installationId = id) }))
    clock s

/-- The hostnames that are reserved for the operator. -/
def operatorHostnames (policy : AuthorityPolicy) : List Text :=
  [policy.lanDomain, "authority-control.".toList ++ policy.lanDomain]

/-- The target of an operator challenge. -/
def operatorTarget (policy : AuthorityPolicy) (hostname : Text) : Option Text :=
  if hostname = policy.lanDomain then some policy.lanDomain
  else if hostname = policy.apiHostname then some ("authority-control.".toList ++ policy.lanDomain)
  else none

def operatorChallenge (policy : AuthorityPolicy) (hostname : Text) (value : Option Text) (remove : Bool)
    (clock : Option Timestamp) (s : AuthorityStore Body) :
    Except AuthorityError (AuthorityResult × AuthorityStore Body) := do
  let target ← obtain? (operatorTarget policy hostname) .operatorChallengeRejected
  let value ← obtain? value .operatorChallengeRejected
  demand (strictBase64Url 32 value) .operatorChallengeRejected
  s.transaction clock fun now s => do
    let name := challengeName target
    if remove then
      pure (.removed true, { s with
        operatorChallenges := s.operatorChallenges.filter fun row => ¬ (row.name = name ∧ row.value = value) })
    else match s.operatorChallenges.find? fun row => row.name = name ∧ row.value = value with
      | some existing => pure (.operator name existing.expiresAt, s)
      | none => do
        demand (s.operatorChallenges.length < 4) .operatorChallengeCapacity
        let expiresAt := now + policy.limits.challengeTtlMs
        pure (.operator name expiresAt,
          { s with operatorChallenges := s.operatorChallenges ++ [⟨name, value, expiresAt⟩] })

/-- `revokeInstallation`; the id is missing when it is not the hash of a key. -/
def revokeInstallation (id : Option InstallationId) (clock : Option Timestamp) (s : AuthorityStore Body) :
    Except AuthorityError (AuthorityResult × AuthorityStore Body) := do
  let id ← obtain? id .invalidIdentity
  s.transaction clock fun _ s =>
    let revoked := s.setInstallation id fun row => { row with revoked := true }
    .ok (.revoked, { revoked with
      nonces := s.nonces.filter fun row => row.installationId ≠ id
      challenges := s.challenges.filter fun row => row.installationId ≠ id })

/-- The calls, with the random values that they draw. -/
inductive AuthorityCall (Body : Type) where
  | gc
  | issueNonce (publicKey : Option PublicKey) (nonce : Text)
  | enroll (body : Body) (proof : Option AuthorityProof)
  | createInvite (uses ttlMs : Nat) (code : Text)
  | bindAcmeAccount (body : Body) (proof : Option AuthorityProof) (issuer : AuthorityIssuer)
  | authorizeKeyless (body : Body) (proof : Option AuthorityProof) (signing : Bool)
  | presentChallenge (body : Body) (proof : Option AuthorityProof) (challengeId : Text)
  | removeChallenge (body : Body) (proof : Option AuthorityProof)
  | operatorChallenge (hostname : Text) (value : Option Text) (remove : Bool)
  | revokeInstallation (id : Option InstallationId)

/-- What a call does when nothing of the database fails. -/
def AuthorityCall.perform (runtime : AuthorityRuntime Body) (policy : AuthorityPolicy) (clock : Option Timestamp) :
    AuthorityCall Body → AuthorityTransaction Body
  | .gc => AuthorityStore.gc clock
  | .issueNonce publicKey nonce => LatexRenderer.issueNonce runtime policy publicKey nonce clock
  | .enroll body proof => LatexRenderer.enroll runtime policy body proof clock
  | .createInvite uses ttlMs code => LatexRenderer.createInvite policy uses ttlMs code clock
  | .bindAcmeAccount body proof issuer => LatexRenderer.bindAcmeAccount runtime policy body proof issuer clock
  | .authorizeKeyless body proof signing => LatexRenderer.authorizeKeyless runtime policy body proof signing clock
  | .presentChallenge body proof challengeId =>
    LatexRenderer.presentChallenge runtime policy body proof challengeId clock
  | .removeChallenge body proof => LatexRenderer.removeChallenge runtime policy body proof clock
  | .operatorChallenge hostname value remove => LatexRenderer.operatorChallenge policy hostname value remove clock
  | .revokeInstallation id => LatexRenderer.revokeInstallation id clock

/-- The random secret that a call draws is not one that was drawn and committed before. -/
def AuthorityCall.Fresh (s : AuthorityStore Body) : AuthorityCall Body → Prop
  | .issueNonce _ nonce => ∀ row ∈ s.issued, row.nonce ≠ nonce
  | .createInvite _ _ code => ∀ row ∈ s.invited, row.1 ≠ code
  | _ => True

/-- A call with the time that it reads, and whether the database fails before or at its commit. -/
structure AuthorityEvent (Body : Type) where
  call : AuthorityCall Body
  clock : Option Timestamp
  fails : Bool

/-- The state after a call. -/
def AuthorityEvent.next (runtime : AuthorityRuntime Body) (policy : AuthorityPolicy) (event : AuthorityEvent Body)
    (s : AuthorityStore Body) : AuthorityStore Body :=
  match event.fails, event.call.perform runtime policy event.clock s with
  | false, .ok (_, t) => t
  | _, _ => s

/-- The authority, from an empty database on. -/
def authorityMachine (runtime : AuthorityRuntime Body) (policy : AuthorityPolicy) :
    LabeledMachine (AuthorityStore Body) (AuthorityEvent Body) where
  Init s := s = ⟨[], [], [], [], [], [], [], [], [], []⟩
  Step s event t := event.call.Fresh s ∧ t = event.next runtime policy s

end Store

end LatexRenderer
