import LatexRenderer.Machine.Run
import LatexRenderer.Model.Deploy.LanAddress

/-! # The session of a server setup

A session loads the installed review, previews a candidate, applies what was previewed under the token of its review, or
recovers. One operation of the host runs at a time; a call that is refused, one that waits for the host and one that is
about to return are different states. Every reading of the clock is a value of its own.
-/

namespace LatexRenderer

open Machine

/-- The phases of a session. -/
inductive SetupPhase where
  | editing
  | reviewed
  | applying
  | complete
  | failed
  | closed
deriving DecidableEq, Repr

/-- Why a call fails; `readiness` is whatever `reviewServerSetupReadiness` throws. -/
inductive SetupError where
  | invalidLifetime
  | sessionClosed
  | sessionBusy
  | sessionComplete
  | hostUnavailable
  | reviewLimit
  | invalidReview
  | hostReviewFailed
  | readiness
  | reviewConfirmationRequired
  | invalidInitialCredentials
  | applyFailed
  | recoveryUnavailable
  | recoveryFailed
deriving DecidableEq, Repr

/-- The codes of `ServerSetupSessionError`. -/
def SetupError.code : SetupError → Option String
  | .invalidLifetime => some "INVALID_LIFETIME"
  | .sessionClosed => some "SESSION_CLOSED"
  | .sessionBusy => some "SESSION_BUSY"
  | .sessionComplete => some "SESSION_COMPLETE"
  | .hostUnavailable => some "HOST_UNAVAILABLE"
  | .reviewLimit => some "REVIEW_LIMIT"
  | .invalidReview => some "INVALID_REVIEW"
  | .hostReviewFailed => some "HOST_REVIEW_FAILED"
  | .readiness => none
  | .reviewConfirmationRequired => some "REVIEW_CONFIRMATION_REQUIRED"
  | .invalidInitialCredentials => some "INVALID_INITIAL_CREDENTIALS"
  | .applyFailed => some "APPLY_FAILED_RECOVERY_MAY_BE_REQUIRED"
  | .recoveryUnavailable => some "RECOVERY_UNAVAILABLE"
  | .recoveryFailed => some "RECOVERY_FAILED_PRIVATE_STATE_RETAINED"

inductive SetupScope where
  | initialPreparedHost
  | ingressPreparedHost
  | other
deriving DecidableEq, Repr

variable {Input Review Envelope Credentials Initial Readiness : Type}

/-- What a session is given: the host, without its operations, and the validators. -/
structure SetupHost (Input Review Envelope Credentials Initial Readiness : Type) where
  scope : SetupScope
  recovers : Bool
  validateServerSetupReview : Input → Option Review
  reviewServerSetupReadiness : Review → Option Readiness
  validateServerInitialInput : Option Review → Option Credentials → Option Initial
  validateServerIngressInput : Option Review → Option Credentials → Option Initial

/-- An operation of the host that was called. -/
inductive HostCall (Review Envelope Initial : Type) where
  | current
  | preview (candidate : Review)
  | apply (envelope : Option Envelope) (initial : Option Initial)
  | recover

/-- What a call returns. -/
inductive SetupReply (Review Readiness : Type) where
  | loaded (review : Review)
  | reviewed (review : Review) (readiness : Readiness) (confirmation : Text)
  | complete
  | recovered (phase : SetupPhase) (awaitingCredentials : Bool)

/-- Where the call that holds the session stands: it waits for the host, or is about to return. -/
inductive SetupWork (Review Envelope Initial Readiness : Type) where
  | idle
  | running (call : HostCall Review Envelope Initial)
  | ended (result : Except SetupError (SetupReply Review Readiness))

/-- What happened to a session, kept for the specification. -/
inductive SetupEntry (Envelope : Type) where
  | began
  | answered
  | reviewed (envelope : Option Envelope) (token : Text)
  | accepted (token : Text)
  | applied (envelope : Option Envelope) (token : Text) (now : Rat)
  | completed
  | closed
deriving DecidableEq

/-- The variables of `createServerSetupSession`, with the call that holds the session and its history. -/
structure SetupSession (Review Envelope Initial Readiness : Type) where
  expires : Rat
  phase : SetupPhase
  busy : Bool
  installed : Option Review
  pending : Option Envelope
  pendingReview : Option Review
  confirmation : Option Text
  reviews : Nat
  work : SetupWork Review Envelope Initial Readiness
  history : List (SetupEntry Envelope)

def createServerSetupSession (lifetimeMs : Int) (now : Rat) :
    Except SetupError (SetupSession Review Envelope Initial Readiness) :=
  if lifetimeMs < 1000 ∨ 7200000 < lifetimeMs then .error .invalidLifetime
  else .ok {
    expires := now + lifetimeMs
    phase := .editing
    busy := false
    installed := none
    pending := none
    pendingReview := none
    confirmation := none
    reviews := 0
    work := .idle
    history := [] }

/-- `/^[A-Za-z0-9_-]{43}$/`. -/
def confirmationText (value : Text) : Bool :=
  decide (value.length = 43) && value.all fun c => c.isAlphanum || c == '_' || c == '-'

/-- `sameToken`; what is no string is nothing. -/
def sameToken (actual expected : Option Text) : Bool :=
  match actual, expected with
  | some actual, some expected => confirmationText actual && decide (actual = expected)
  | _, _ => false

namespace SetupSession

/-- `alive`, without its error. -/
def alive (now : Rat) (s : SetupSession Review Envelope Initial Readiness) : SetupSession Review Envelope Initial Readiness :=
  if s.expires ≤ now ∧ s.busy = false then
    { s with
      phase := .closed
      pending := none
      confirmation := none
      installed := none
      history := .closed :: s.history }
  else s

/-- `exclusive`: the session after the part of a call that does not wait, or the error. -/
def exclusive (now : Rat)
    (operation : SetupSession Review Envelope Initial Readiness → SetupSession Review Envelope Initial Readiness)
    (s : SetupSession Review Envelope Initial Readiness) :
    SetupSession Review Envelope Initial Readiness × Option SetupError :=
  let s := s.alive now
  if s.phase = .closed then (s, some .sessionClosed)
  else if s.busy = true then (s, some .sessionBusy)
  else if s.phase = .complete then (s, some .sessionComplete)
  else (operation { s with busy := true }, none)

/-- The operation ends; its call is about to return. -/
def ends (result : Except SetupError (SetupReply Review Readiness)) (s : SetupSession Review Envelope Initial Readiness) :
    SetupSession Review Envelope Initial Readiness :=
  { s with work := .ended result }

/-- The operation calls the host. -/
def calls (call : HostCall Review Envelope Initial) (s : SetupSession Review Envelope Initial Readiness) :
    SetupSession Review Envelope Initial Readiness :=
  { s with work := .running call, history := .began :: s.history }

/-- `status`, up to the host. -/
def status (first second : Rat) (s : SetupSession Review Envelope Initial Readiness) :
    SetupSession Review Envelope Initial Readiness × Option SetupError :=
  let s := s.alive first
  if s.phase = .closed then (s, some .sessionClosed)
  else if s.busy = true then (s, some .sessionBusy)
  else if s.installed.isSome = true then (s, none)
  else s.exclusive second (calls .current)

section Operations

variable (host : SetupHost Input Review Envelope Credentials Initial Readiness)

/-- `preview`, up to the host. -/
def beginPreview (input : Input) (s : SetupSession Review Envelope Initial Readiness) :
    SetupSession Review Envelope Initial Readiness :=
  let s := { s with
    pending := none
    pendingReview := none
    confirmation := none
    phase := .editing
    reviews := s.reviews + 1 }
  if 128 < s.reviews then s.ends (.error .reviewLimit)
  else match host.validateServerSetupReview input with
    | none => s.ends (.error .invalidReview)
    | some candidate => s.calls (.preview candidate)

/-- The check of the credentials: nothing when it throws. -/
def checkCredentials (pendingReview : Option Review) (credentials : Option Credentials) : Option (Option Initial) :=
  match host.scope with
  | .initialPreparedHost => (host.validateServerInitialInput pendingReview credentials).map some
  | .ingressPreparedHost => (host.validateServerIngressInput pendingReview credentials).map some
  | .other => if credentials.isSome = true then none else some none

/-- `apply`, up to the host. -/
def beginApply (now : Rat) (token : Option Text) (credentials : Option Credentials)
    (s : SetupSession Review Envelope Initial Readiness) : SetupSession Review Envelope Initial Readiness :=
  if s.phase = .reviewed ∧ sameToken token s.confirmation = true then
    let accepted := .accepted (token.getD []) :: s.history
    match checkCredentials host s.pendingReview credentials with
    | none => { s with work := .ended (.error .invalidInitialCredentials), history := accepted }
    | some initial =>
      { s with
        pending := none
        confirmation := none
        phase := .applying
        work := .running (.apply s.pending initial)
        history := .applied s.pending (token.getD []) now :: accepted }
  else s.ends (.error .reviewConfirmationRequired)

/-- `recover`, up to the host. -/
def beginRecover (s : SetupSession Review Envelope Initial Readiness) : SetupSession Review Envelope Initial Readiness :=
  if host.recovers = true then
    { s with pending := none, pendingReview := none, confirmation := none }.calls .recover
  else s.ends (.error .recoveryUnavailable)

def close (s : SetupSession Review Envelope Initial Readiness) :
    SetupSession Review Envelope Initial Readiness × Option SetupError :=
  if s.busy = true then (s, some .sessionBusy)
  else ({ s with
    phase := .closed
    expires := 0
    installed := none
    pending := none
    pendingReview := none
    confirmation := none
    history := .closed :: s.history }, none)

/-- `status`, from the answer of `host.current` on; nothing when it rejects. -/
def currentDone (answer : Option Input) (s : SetupSession Review Envelope Initial Readiness) :
    SetupSession Review Envelope Initial Readiness :=
  match answer.bind host.validateServerSetupReview with
  | some review =>
    { s with installed := some review, work := .ended (.ok (.loaded review)), history := .answered :: s.history }
  | none => { s with work := .ended (.error .hostUnavailable), history := .answered :: s.history }

/-- `preview`, from the answer of `host.preview` on. -/
def previewDone (candidate : Review) (answer : Option (Option Envelope)) (token : Text)
    (s : SetupSession Review Envelope Initial Readiness) : SetupSession Review Envelope Initial Readiness :=
  match answer with
  | none => { s with work := .ended (.error .hostReviewFailed), history := .answered :: s.history }
  | some envelope =>
    { s with
      pending := envelope
      pendingReview := some candidate
      confirmation := some token
      phase := .reviewed
      work := match host.reviewServerSetupReadiness candidate with
        | some readiness => .ended (.ok (.reviewed candidate readiness token))
        | none => .ended (.error .readiness)
      history := .reviewed envelope token :: .answered :: s.history }

/-- `apply`, from the answer of `host.apply` on. -/
def applyDone (succeeds : Bool) (s : SetupSession Review Envelope Initial Readiness) :
    SetupSession Review Envelope Initial Readiness :=
  if succeeds = true then
    { s with
      phase := .complete
      pendingReview := none
      work := .ended (.ok .complete)
      history := .completed :: .answered :: s.history }
  else
    { s with
      phase := .failed
      pendingReview := none
      work := .ended (.error .applyFailed)
      history := .answered :: s.history }

/-- The result of `host.recover`. -/
structure Recovery where
  committed : Bool
  awaitingCredentials : Bool

/-- `recover`, from the answer of `host.recover` on. -/
def recoverDone (answer : Option Recovery) (s : SetupSession Review Envelope Initial Readiness) :
    SetupSession Review Envelope Initial Readiness :=
  match answer with
  | none => { s with phase := .failed, work := .ended (.error .recoveryFailed), history := .answered :: s.history }
  | some result =>
    if result.committed = true then
      { s with
        phase := .complete
        installed := none
        work := .ended (.ok (.recovered .complete result.awaitingCredentials))
        history := .completed :: .answered :: s.history }
    else
      { s with
        phase := .editing
        installed := none
        work := .ended (.ok (.recovered .editing result.awaitingCredentials))
        history := .answered :: s.history }

end Operations

end SetupSession

/-- What happens to a session: a call, an answer of the host, or the return of the call that holds the session. -/
inductive SetupEvent (Input Envelope Credentials : Type) where
  | status (first second : Rat)
  | preview (now : Rat) (input : Input)
  | apply (now : Rat) (token : Option Text) (credentials : Option Credentials)
  | recover (now : Rat)
  | close
  | currentDone (answer : Option Input)
  | previewDone (answer : Option (Option Envelope)) (token : Text)
  | applyDone (succeeds : Bool)
  | recoverDone (answer : Option SetupSession.Recovery)
  | returns

/-- The token that an entry of the history gives out. -/
def SetupEntry.issued? : SetupEntry Envelope → Option Text
  | .reviewed _ token => some token
  | _ => none

/-- A step of the session. A token is 256 random bits and is never drawn twice. -/
def setupStep (host : SetupHost Input Review Envelope Credentials Initial Readiness)
    (s : SetupSession Review Envelope Initial Readiness) :
    SetupEvent Input Envelope Credentials → Option (SetupSession Review Envelope Initial Readiness)
  | .status first second => some (s.status first second).1
  | .preview now input => some (s.exclusive now (SetupSession.beginPreview host input)).1
  | .apply now token credentials => some (s.exclusive now (SetupSession.beginApply host now token credentials)).1
  | .recover now => some (s.exclusive now (SetupSession.beginRecover host)).1
  | .close => some s.close.1
  | .currentDone answer =>
    match s.work with
    | .running .current => some (s.currentDone host answer)
    | _ => none
  | .previewDone answer token =>
    match s.work with
    | .running (.preview candidate) =>
      if token ∈ s.history.filterMap SetupEntry.issued? then none else some (s.previewDone host candidate answer token)
    | _ => none
  | .applyDone succeeds =>
    match s.work with
    | .running (.apply _ _) => some (s.applyDone succeeds)
    | _ => none
  | .recoverDone answer =>
    match s.work with
    | .running .recover => some (s.recoverDone answer)
    | _ => none
  | .returns =>
    match s.work with
    | .ended _ => some { s with busy := false, work := .idle }
    | _ => none

/-- The runs of a session that expires at the deadline. -/
def setupMachine (host : SetupHost Input Review Envelope Credentials Initial Readiness) (deadline : Rat) :
    LabeledMachine (SetupSession Review Envelope Initial Readiness) (SetupEvent Input Envelope Credentials) :=
  ofPartial (fun s => ∃ lifetimeMs now, createServerSetupSession lifetimeMs now = .ok s ∧ s.expires = deadline)
    (setupStep host)

end LatexRenderer
