import LatexRenderer.Machine.Files
import LatexRenderer.Machine.Session

/-! # Reviewed changes of the authentication environment

`applyReviewedEnvironment` replaces the EnvironmentFile of the running services by a reviewed one:
it writes a private journal, stops the consumers, renames the new file into place, starts the consumers,
checks their health and marks the journal committed. `recoverAuthenticationChange` ends a transaction
that was interrupted. Both run under the mutation lock of the host.

What a text must look like to be an EnvironmentFile, and what a review makes of one, is decided by pure
functions; they are the fields of `Reviews`.
-/

namespace LatexRenderer

open Machine

/-- `phase` of the recovery journal. -/
inductive AuthenticationPhase where
  | pending
  | committed
deriving DecidableEq, Repr

/-- The recovery journal; `format` 1 is an authentication change, 2 a server setup change. -/
structure AuthenticationJournal where
  format : Nat
  phase : AuthenticationPhase
  before : String
  after : String
deriving DecidableEq, Repr

/-- The approval of a review, with the fingerprints of the files it was made from and for. -/
structure AuthenticationEnvelope (R : Type) where
  format : Nat
  baseSha256 : String
  candidateSha256 : String
  review : R

/-- What `authenticationChangeReview` and `serverSetupChangeReview` return. -/
structure PreparedEnvironment where
  baseSha256 : String
  candidateSha256 : String
  after : String

/-- The pure functions over EnvironmentFile texts that a change relies on; a `none` or `false` stands for
an error they throw. -/
structure Reviews (R : Type) where
  checkedEnvironment : String → Bool
  productionAuthenticationPlan : String → Bool
  importServerSetupReview : String → Option R
  authenticationChangeReview : String → R → Option PreparedEnvironment
  serverSetupChangeReview : String → R → Option PreparedEnvironment
  serverSetupConsumerUnits : String → List String

def authenticationUnits : List String :=
  ["latex-renderer-admin-api.service", "latex-renderer-remote-mcp.service"]

/-- What a failed call reports. -/
inductive AuthenticationError where
  | host
  | invalidEnvironment
  | invalidJournal
  | temporaryExists
  | consumersDidNotStop
  | consumersDidNotStart
  | consumerNotActive
  | changedOutsideTransaction
  | committedMismatch
  | bootRequiresStopped
  | recoverPreviousFirst
  | invalidReviewedChange
  | staleReview
  | inactiveConsumer
  | changedDuringPreflight
  | changedDuringCutover
  | changedDuringReadiness
  | recoveryIncomplete
  | failedAndRecovered
deriving DecidableEq, Repr

instance : Fault AuthenticationError := ⟨.host⟩

/-- The texts of the errors. -/
def AuthenticationError.message : AuthenticationError → String
  | .host => ""
  | .invalidEnvironment => "Invalid authentication EnvironmentFile size"
  | .invalidJournal => "Invalid authentication recovery journal"
  | .temporaryExists => "EEXIST"
  | .consumersDidNotStop => "Authentication consumers did not stop"
  | .consumersDidNotStart => "Authentication consumers did not start"
  | .consumerNotActive => "Authentication consumer is not active"
  | .changedOutsideTransaction =>
    "AUTHENTICATION_REVIEW_REQUIRED: configuration changed outside the transaction"
  | .committedMismatch => "AUTHENTICATION_REVIEW_REQUIRED: committed configuration mismatch"
  | .bootRequiresStopped => "Boot authentication recovery requires stopped consumers"
  | .recoverPreviousFirst => "AUTHENTICATION_REVIEW_REQUIRED: recover the previous transaction first"
  | .invalidReviewedChange => "Invalid reviewed authentication change"
  | .staleReview => "Authentication review is stale or has been edited; review again"
  | .inactiveConsumer =>
    "Configuration changes require every selected existing consumer to be active"
  | .changedDuringPreflight => "Authentication configuration changed during preflight"
  | .changedDuringCutover => "Authentication configuration changed during cutover"
  | .changedDuringReadiness => "Authentication configuration changed during readiness checks"
  | .recoveryIncomplete =>
    "AUTHENTICATION_REVIEW_REQUIRED: recovery incomplete; private journal retained"
  | .failedAndRecovered =>
    "Authentication change failed; recovery completed; verify the active configuration; retired sessions remain revoked"

/-- The files of a transaction: `renderer.env` and `journal.json`, each with its temporary file. -/
structure AuthenticationFiles where
  environment : AtomicFile String
  journal : AtomicFile (Option AuthenticationJournal)

def environmentFile : Field AuthenticationFiles (AtomicFile String) where
  get := (·.environment)
  set s file := { s with environment := file }
  get_set _ _ := rfl
  set_set _ _ _ := rfl
  set_get _ := rfl

def journalFile : Field AuthenticationFiles (AtomicFile (Option AuthenticationJournal)) where
  get := (·.journal)
  set s file := { s with journal := file }
  get_set _ _ := rfl
  set_set _ _ _ := rfl
  set_get _ := rfl

/-- The steps of a transaction. The start of a unit and the health check carry the contents that
`startConsumers` was called for. -/
inductive AuthenticationSite where
  | inspectDirectories
  | inspectJournalTemporary
  | discardJournalTemporary
  | inspectEnvironmentTemporary
  | discardEnvironmentTemporary
  | readJournal
  | readEnvironment
  | createJournalTemporary
  | renameJournal (value : AuthenticationJournal)
  | syncJournal
  | unlinkJournal
  | createEnvironmentTemporary
  | renameEnvironment (contents : String)
  | syncEnvironment
  | preflight (contents : String)
  | active (unit : String)
  | stop (unit : String)
  | prepareServices
  | start (contents : String) (unit : String)
  | health (contents : String)
deriving DecidableEq, Repr

/-- A process of the transaction; where it asks whether a unit is active, the host answers. -/
abbrev AuthenticationProcess (α : Type) : Type :=
  Process AuthenticationSite AuthenticationFiles Bool AuthenticationError α

variable {R : Type} (reviews : Reviews R)

def Reviews.checkedJournal (value : AuthenticationJournal) : Bool :=
  [value.before, value.after].all (fun text =>
    reviews.checkedEnvironment text && reviews.productionAuthenticationPlan text &&
      (value.format != 2 || (reviews.importServerSetupReview text).isSome)) &&
  (value.format != 2 ||
    match reviews.importServerSetupReview value.after with
    | none => false
    | some review =>
      match reviews.serverSetupChangeReview value.before review with
      | none => false
      | some prepared => prepared.after == value.after)

namespace AuthenticationChangeStore

/-- `initialize`: the directories are checked, and the temporary files of an earlier process removed. -/
def initializeStore : AuthenticationProcess Unit := do
  Process.ask .inspectDirectories fun _ _ => .ok ()
  Process.discardTemporary journalFile .inspectJournalTemporary .discardJournalTemporary .syncJournal
  Process.discardTemporary environmentFile .inspectEnvironmentTemporary .discardEnvironmentTemporary
    .syncEnvironment

def environment : AuthenticationProcess String :=
  Process.ask .readEnvironment fun _ s =>
    if reviews.checkedEnvironment s.environment.entry.visible then .ok s.environment.entry.visible
    else .error .invalidEnvironment

def journal : AuthenticationProcess (Option AuthenticationJournal) :=
  Process.ask .readJournal fun _ s =>
    match s.journal.entry.visible with
    | none => .ok none
    | some value => if reviews.checkedJournal value then .ok (some value) else .error .invalidJournal

/-- `saveJournal`: the journal is checked and replaced by `atomic`. -/
def saveJournal (value : AuthenticationJournal) : AuthenticationProcess Unit := do
  Process.require (reviews.checkedJournal value = true) .invalidJournal
  Process.replaceFile journalFile .createJournalTemporary (.renameJournal value) .syncJournal
    .temporaryExists (some value)

/-- `replaceEnvironment`: the contents are checked and replaced by `atomic`. -/
def replaceEnvironment (contents : String) : AuthenticationProcess Unit := do
  Process.require (reviews.checkedEnvironment contents = true) .invalidEnvironment
  Process.replaceFile environmentFile .createEnvironmentTemporary (.renameEnvironment contents)
    .syncEnvironment .temporaryExists contents

def clear : AuthenticationProcess Unit :=
  Process.unlinkFile journalFile .unlinkJournal .syncJournal

end AuthenticationChangeStore

open AuthenticationChangeStore

/-- `host.run` and the queries of the host leave the files alone. -/
def hostCall (site : AuthenticationSite) : AuthenticationProcess Unit :=
  Process.ask site fun _ _ => .ok ()

def hostActive (unit : String) : AuthenticationProcess Bool :=
  Process.ask (.active unit) fun answer _ => .ok answer

/-- The loops that ask whether every unit is active, or whether none is. -/
def checkUnits (units : List String) (expected : Bool) (error : AuthenticationError) :
    AuthenticationProcess Unit :=
  Process.each units fun unit => do
    let running ← hostActive unit
    Process.require (running = expected) error

def stopConsumers (units : List String) : AuthenticationProcess Unit := do
  Process.each units fun unit => hostCall (.stop unit)
  checkUnits units false .consumersDidNotStop

def startConsumers (contents : String) (units : List String) : AuthenticationProcess Unit := do
  hostCall .prepareServices
  let failed ← Process.attemptEach units fun unit => hostCall (.start contents unit)
  Process.require (failed = []) .consumersDidNotStart
  checkUnits units true .consumerNotActive
  hostCall (.health contents)

def recoverAuthenticationChange (beforeStart : Bool) : AuthenticationProcess Bool := do
  initializeStore
  match ← journal reviews with
  | none => pure false
  | some value =>
    let units := if value.format = 2 then reviews.serverSetupConsumerUnits value.before
      else authenticationUnits
    let current ← environment reviews
    Process.require (current = value.before ∨ current = value.after) .changedOutsideTransaction
    if value.phase = .committed then do
      Process.require (current = value.after) .committedMismatch
      clear
      pure true
    else do
      (if beforeStart then checkUnits units false .bootRequiresStopped else stopConsumers units)
      replaceEnvironment reviews value.before
      (if beforeStart then hostCall .prepareServices else startConsumers value.before units)
      clear
      pure true

/-- `/^[a-f0-9]{64}$/`. -/
def isSha256 (text : String) : Bool :=
  text.toList.length == 64 && text.toList.all fun c => ('a' ≤ c && c ≤ 'f') || ('0' ≤ c && c ≤ '9')

/-- The `try` block of `applyReviewedEnvironment`. -/
def cutover (pending : AuthenticationJournal) (units : List String) : AuthenticationProcess Unit := do
  stopConsumers units
  let stopped ← environment reviews
  Process.require (stopped = pending.before) .changedDuringCutover
  replaceEnvironment reviews pending.after
  startConsumers pending.after units
  let ready ← environment reviews
  Process.require (ready = pending.after) .changedDuringReadiness
  saveJournal reviews { pending with phase := .committed }

/-- Its `catch` block. -/
def rollBack : AuthenticationProcess Unit := do
  tryCatch (do let _ ← recoverAuthenticationChange reviews false) fun _ => throw .recoveryIncomplete
  throw .failedAndRecovered

/-- `applyReviewedEnvironment`; it returns the contents whose plan is reported. An envelope whose keys
are not those of an approval is `none`. -/
def applyReviewedEnvironment (format : Nat)
    (prepare : String → R → Option PreparedEnvironment) (unitsOf : String → List String)
    (envelope : Option (AuthenticationEnvelope R)) : AuthenticationProcess String := do
  initializeStore
  let previous ← journal reviews
  Process.require (previous = none) .recoverPreviousFirst
  match envelope with
  | none => throw .invalidReviewedChange
  | some approved =>
    Process.require (approved.format = format ∧ isSha256 approved.baseSha256 = true ∧
      isSha256 approved.candidateSha256 = true) .invalidReviewedChange
    let before ← environment reviews
    let units := unitsOf before
    match prepare before approved.review with
    | none => throw .invalidReviewedChange
    | some prepared =>
      Process.require (approved.baseSha256 = prepared.baseSha256 ∧
        approved.candidateSha256 = prepared.candidateSha256) .staleReview
      let after := prepared.after
      hostCall (.preflight after)
      checkUnits units true .inactiveConsumer
      hostCall (.health before)
      let checked ← environment reviews
      Process.require (checked = before) .changedDuringPreflight
      if format = 2 ∧ after = before then pure after
      else do
        let pending : AuthenticationJournal := ⟨format, .pending, before, after⟩
        saveJournal reviews pending
        tryCatch (cutover reviews pending units) fun _ => rollBack reviews
        clear
        pure after

/-- The calls of the privileged command. -/
inductive AuthenticationCall (R : Type) where
  | applyAuthenticationChange (envelope : Option (AuthenticationEnvelope R))
  | applyServerSetupChange (envelope : Option (AuthenticationEnvelope R))
  | recoverAuthenticationChange (beforeStart : Bool)

/-- What a call returns: the contents whose plan or review is reported, or whether there was anything to
recover. -/
inductive AuthenticationResult where
  | applied (contents : String)
  | recovered (done : Bool)
deriving DecidableEq, Repr

/-- The process of a call. -/
def AuthenticationCall.process :
    AuthenticationCall R → AuthenticationProcess AuthenticationResult
  | .applyAuthenticationChange envelope => do
    let contents ← applyReviewedEnvironment reviews 1 reviews.authenticationChangeReview
      (fun _ => authenticationUnits) envelope
    pure (.applied contents)
  | .applyServerSetupChange envelope => do
    let _ ← applyReviewedEnvironment reviews 2 reviews.serverSetupChangeReview
      reviews.serverSetupConsumerUnits envelope
    let contents ← environment reviews
    Process.require ((reviews.importServerSetupReview contents).isSome = true) .invalidEnvironment
    pure (.applied contents)
  | .recoverAuthenticationChange beforeStart => do
    let done ← LatexRenderer.recoverAuthenticationChange reviews beforeStart
    pure (.recovered done)

/-- A power loss between two calls; every unsynced change of a directory is taken back or is not. -/
structure AuthenticationPowerLoss where
  environment : Bool
  environmentTemporary : Bool
  journal : Bool
  journalTemporary : Bool
deriving DecidableEq, Repr

/-- What a power loss leaves. -/
def AuthenticationFiles.lose (files : AuthenticationFiles) (loss : AuthenticationPowerLoss) :
    AuthenticationFiles where
  environment := files.environment.lose loss.environment loss.environmentTemporary
  journal := files.journal.lose loss.journal loss.journalTemporary

/-- The host starts with an EnvironmentFile and without a journal. -/
def authenticationService :
    Service (AuthenticationCall R) AuthenticationSite AuthenticationFiles Bool AuthenticationError
      AuthenticationResult AuthenticationPowerLoss where
  Init files := (∃ contents, files.environment.entry = .settled contents) ∧
    files.journal.entry = .settled none
  program call := call.process reviews
  drift loss files := some (files.lose loss)

end LatexRenderer
