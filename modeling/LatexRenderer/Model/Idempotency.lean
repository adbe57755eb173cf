import LatexRenderer.Machine.Expiring
import LatexRenderer.Model.Database

/-! # Idempotent creation

`idempotency_records` and the services that create a job, a source or an SVG retry under an
`Idempotency-Key`. All of them look the key up, create in one transaction the resource and its record, and
look the key up again when that transaction throws; the SVG retry does both in one transaction. A request
is followed from its lookup to its answer, so that any number of requests can interleave.
-/

namespace LatexRenderer

open Machine

/-- The primary key of `idempotency_records`. -/
structure IdempotencyKey where
  actorType : String
  actorId : String
  operation : String
  keyHash : String
deriving DecidableEq, Repr

/-- A row of `idempotency_records`. -/
structure IdempotencyRow where
  key : IdempotencyKey
  requestHash : String
  resourceId : Option String
  responseCode : Nat
  expiresAt : Timestamp
  createdAt : Timestamp
deriving DecidableEq, Repr

def idempotency (key : IdempotencyKey) (now : Timestamp) (records : List IdempotencyRow) :
    Option IdempotencyRow :=
  live? IdempotencyRow.key IdempotencyRow.expiresAt key now records

/-- Why `insertIdempotency` throws. -/
inductive IdempotencyRefusal where
  | lifetime | active
deriving DecidableEq, Repr

/-- The error of a refused insertion; the first one is no `AppError`. -/
def IdempotencyRefusal.error? : IdempotencyRefusal → Option AppError
  | .lifetime => none
  | .active => some ⟨"IDEMPOTENCY_CONFLICT", "Idempotency-Key is already active", 409⟩

def insertIdempotency (row : IdempotencyRow) (records : List IdempotencyRow) :
    Except IdempotencyRefusal (List IdempotencyRow) :=
  if ¬ row.expiresAt > row.createdAt then .error .lifetime
  else
    match claim? IdempotencyRow.key IdempotencyRow.expiresAt row.createdAt row records with
    | some next => .ok next
    | none => .error .active

/-- The cleanup script's `DELETE FROM idempotency_records WHERE expires_at<?`. -/
def cleanupIdempotency (now : Timestamp) (records : List IdempotencyRow) : List IdempotencyRow :=
  records.filter fun row => !decide (row.expiresAt < now)

/-- In what the services differ: the operation and the texts of their errors. The retry of the administrator
takes a record without a resource for absent. -/
structure IdempotentService where
  operation : String
  conflict : String
  incomplete : Option String

/-- `RenderTicketsService`, for uploads and for jobs over a source. -/
def renderTicketsService : IdempotentService where
  operation := "render.create"
  conflict := "Idempotency-Key was reused with a different request"
  incomplete := some "Original request is still incomplete"

def sourceTicketsService : IdempotentService where
  operation := "source.create"
  conflict := "Idempotency-Key was reused with a different request"
  incomplete := some "Original request is incomplete"

/-- The administrator's `createRender`, for uploads. -/
def adminRenderService : IdempotentService where
  operation := "admin.render.create"
  conflict := "Idempotency-Key was reused with a different request"
  incomplete := some "Original request is still incomplete"

/-- The administrator's `createRenderFromSource`. -/
def adminRenderFromSourceService : IdempotentService :=
  { adminRenderService with incomplete := some "Original request is incomplete" }

/-- The administrator's `createSource`. -/
def adminSourceService : IdempotentService where
  operation := "admin.source.create"
  conflict := "Idempotency-Key was reused with a different request"
  incomplete := some "Original request is incomplete"

/-- The administrator's `retry`. -/
def adminRetryService : IdempotentService where
  operation := "render.retry"
  conflict := "Idempotency-Key was reused with another job"
  incomplete := none

/-- `SvgRetryOperations.retry`. -/
def svgRetryService : IdempotentService where
  operation := "render.retry_svg"
  conflict := "Idempotency-Key was reused with another Job"
  incomplete := none

/-- What a lookup tells a request: nothing in its way, an error, or the resource of the first request. -/
inductive LookupResult where
  | absent
  | refused (error : AppError)
  | existing (resourceId : String)
deriving DecidableEq, Repr

/-- The lookup before the transaction. -/
def IdempotentService.lookup (service : IdempotentService) (key : IdempotencyKey) (requestHash : String)
    (now : Timestamp) (records : List IdempotencyRow) : LookupResult :=
  match idempotency key now records with
  | none => .absent
  | some existing =>
    match existing.resourceId, service.incomplete with
    | none, none => .absent
    | resource, incomplete =>
      if existing.requestHash ≠ requestHash then
        .refused ⟨"IDEMPOTENCY_CONFLICT", service.conflict, 409⟩
      else
        match resource with
        | some resourceId => .existing resourceId
        | none => .refused ⟨"IDEMPOTENCY_INCOMPLETE", incomplete.getD "", 409⟩

/-- The lookup after a transaction that threw: the resource of a request with the same hash. -/
def racedLookup (key : IdempotencyKey) (requestHash : String) (now : Timestamp)
    (records : List IdempotencyRow) : Option String := do
  let raced ← idempotency key now records
  if raced.requestHash = requestHash then raced.resourceId else none

/-- What the transaction of a request creates, and for `readySource` the source it hands out instead. -/
inductive Creation where
  | render (input : TicketInput)
  | renderFromSource (input : SourceJobInput)
  | retry (input : RetryJobInput)
  | source (input : SourceReservation)
  | readySource (sourceId : String) (ownerReferences : Nat) (timestamp : Timestamp)

/-- The id that the record gets. -/
def Creation.resourceId : Creation → String
  | .render input => input.jobId
  | .renderFromSource input => input.jobId
  | .retry input => input.jobId
  | .source input => input.id
  | .readySource sourceId _ _ => sourceId

/-- The statements of the transaction before `insertIdempotency`; `none` when one of them throws. -/
def Creation.run (limits : Limits) (db : Database) : Creation → Option Database
  | .render input => db.createRender limits input
  | .renderFromSource input => db.createRenderFromSource ticketTexts limits input
  | .retry input => db.retryRender ticketTexts limits input
  | .source input => db.reserveSource limits input
  | .readySource sourceId ownerReferences timestamp => do
    (assertSourceWritable db).toOption
    let source ← db.sources.find? (·.id == sourceId)
    if source.isReady ownerReferences timestamp then some db else none

/-- Why the transaction of a request threw. -/
inductive CreationRefusal where
  | rejected
  | record (refusal : IdempotencyRefusal)
deriving DecidableEq, Repr

/-- The transaction: the resource and its record, or neither. -/
def createResource (limits : Limits) (creation : Creation) (row : IdempotencyRow) (db : Database)
    (records : List IdempotencyRow) : Except CreationRefusal (Database × List IdempotencyRow) :=
  match creation.run limits db with
  | none => .error .rejected
  | some created =>
    match insertIdempotency row records with
    | .error refusal => .error (.record refusal)
    | .ok next => .ok (created, next)

/-- How far a request is: it has found its key absent, when `seen` resources had been created, or its
transaction threw. -/
inductive RequestPhase where
  | absent (now : Timestamp) (seen : Nat)
  | failed (refusal : CreationRefusal)
deriving DecidableEq, Repr

/-- A request between its lookup and its answer. -/
structure CreationRequest where
  id : String
  key : IdempotencyKey
  requestHash : String
  phase : RequestPhase
deriving DecidableEq, Repr

/-- The outcome of a request. -/
inductive AnswerResult where
  | created (resourceId : String)
  | existing (resourceId : String)
  | refused (error : Option AppError)
deriving DecidableEq, Repr

/-- An answer, with the instant at which it was decided. -/
structure Answer where
  key : IdempotencyKey
  requestHash : String
  decidedAt : Timestamp
  result : AnswerResult
deriving DecidableEq, Repr

/-- The database, the requests under way, and what has been created and answered. -/
structure CreationSystem where
  clock : Timestamp
  db : Database
  records : List IdempotencyRow := []
  requests : List CreationRequest := []
  created : List (Timestamp × IdempotencyRow) := []
  answers : List Answer := []

namespace CreationSystem

/-- The request with an id. -/
def request? (s : CreationSystem) (id : String) : Option CreationRequest :=
  s.requests.find? (·.id == id)

/-- The request goes on in another phase. -/
def withPhase (request : CreationRequest) (phase : RequestPhase) (s : CreationSystem) : CreationSystem :=
  { s with requests := { request with phase := phase } :: s.requests.filter (·.id != request.id) }

/-- The request is answered. -/
def answer (request : CreationRequest) (result : AnswerResult) (s : CreationSystem) : CreationSystem :=
  { s with
    requests := s.requests.filter (·.id != request.id)
    answers := s.answers ++ [⟨request.key, request.requestHash, s.clock, result⟩] }

/-- A committed transaction and its record. -/
def commit (row : IdempotencyRow) (db : Database) (records : List IdempotencyRow) (s : CreationSystem) :
    CreationSystem :=
  { s with db := db, records := records, created := s.created ++ [(s.clock, row)] }

end CreationSystem

/-- The record of a creation. -/
def CreationRequest.row (request : CreationRequest) (resourceId : String) (responseCode : Nat)
    (createdAt expiresAt : Timestamp) : IdempotencyRow where
  key := request.key
  requestHash := request.requestHash
  resourceId := some resourceId
  responseCode := responseCode
  expiresAt := expiresAt
  createdAt := createdAt

/-- What requests, the other programs, the cleanup script and the clock do. -/
inductive CreationAction where
  | advance (clock : Timestamp)
  | lookup (service : IdempotentService) (request : CreationRequest) (now : Timestamp)
  | create (id : String) (creation : Creation) (responseCode : Nat) (createdAt expiresAt : Timestamp)
  | raced (id : String) (now : Timestamp) (error : Option AppError)
  | refuse (request : CreationRequest) (error : AppError)
  | retrySvg (request : CreationRequest) (input : SvgRetryInput) (now expiresAt : Timestamp)
  | transaction (action : DatabaseAction)
  | cleanup (now : Timestamp)

namespace CreationAction

/-- The lookup of a request, and its answer when it finds a record. -/
def lookupStep (service : IdempotentService) (request : CreationRequest) (now : Timestamp)
    (s : CreationSystem) : CreationSystem :=
  match service.lookup request.key request.requestHash now s.records with
  | .absent => s.withPhase request (.absent now s.created.length)
  | .refused error => s.answer request (.refused (some error))
  | .existing resourceId => s.answer request (.existing resourceId)

/-- The transaction of a request that found its key absent. -/
def createStep (limits : Limits) (request : CreationRequest) (creation : Creation)
    (row : IdempotencyRow) (s : CreationSystem) : CreationSystem :=
  match createResource limits creation row s.db s.records with
  | .ok (db, records) => (s.commit row db records).answer request (.created creation.resourceId)
  | .error refusal => s.withPhase request (.failed refusal)

/-- `SvgRetryOperations.retry`: the lookup and the requeue in one transaction; the request is the hash of
the job's id. -/
def retrySvgStep (limits : Limits) (request : CreationRequest) (input : SvgRetryInput)
    (now expiresAt : Timestamp) (s : CreationSystem) : CreationSystem :=
  match idempotency request.key now s.records with
  | some previous =>
    if previous.requestHash ≠ request.requestHash ∨ previous.resourceId ≠ some input.jobId then
      s.answer request (.refused (some ⟨"IDEMPOTENCY_CONFLICT", svgRetryService.conflict, 409⟩))
    else s.answer request (.existing input.jobId)
  | none =>
    let row := request.row input.jobId 202 input.timestamp expiresAt
    match s.db.retrySvg limits input, insertIdempotency row s.records with
    | some db, .ok records => (s.commit row db records).answer request (.created input.jobId)
    | _, .error refusal => s.answer request (.refused refusal.error?)
    | none, _ => s.answer request (.refused none)

/-- What an action makes of the system; `none` when it is not possible. Readings of the clock are of the
past, and those of one request follow each other. -/
def step (limits : Limits) (s : CreationSystem) : CreationAction → Option CreationSystem
  | .advance clock => if s.clock ≤ clock then some { s with clock := clock } else none
  | .lookup service request now =>
    if now ≤ s.clock ∧ request.key.operation = service.operation then
      some (lookupStep service request now s)
    else none
  | .create id creation responseCode createdAt expiresAt => do
    let request ← s.request? id
    match request.phase with
    | .absent now _ =>
      if now ≤ createdAt ∧ createdAt ≤ s.clock then
        some (createStep limits request creation
          (request.row creation.resourceId responseCode createdAt expiresAt) s)
      else none
    | .failed _ => none
  | .raced id now error => do
    let request ← s.request? id
    match request.phase with
    | .failed _ =>
      if now ≤ s.clock then
        match racedLookup request.key request.requestHash now s.records with
        | some resourceId => some (s.answer request (.existing resourceId))
        | none => some (s.answer request (.refused error))
      else none
    | .absent .. => none
  | .refuse request error => some (s.answer request (.refused (some error)))
  | .retrySvg request input now expiresAt =>
    if now ≤ input.timestamp ∧ input.timestamp ≤ s.clock ∧
        request.key.operation = svgRetryService.operation then
      some (retrySvgStep limits request input now expiresAt s)
    else none
  | .transaction action => (action.run limits s.db).map fun db => { s with db := db }
  | .cleanup now =>
    if now ≤ s.clock then some { s with records := cleanupIdempotency now s.records } else none

end CreationAction

/-- The services over any database, before any record. -/
def creationMachine (limits : Limits) : LabeledMachine CreationSystem CreationAction :=
  ofPartial (fun s => ∃ clock db, s = { clock := clock, db := db }) (CreationAction.step limits)

end LatexRenderer
