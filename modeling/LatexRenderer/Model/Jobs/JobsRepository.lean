import LatexRenderer.Model.Rows

/-! # `JobsRepository` and `transitionJob`

A guarded `UPDATE` of one row is a partial function of the row: `none` is `changes = 0`. An `INSERT`
gives the new row.
-/

namespace LatexRenderer

/-- Arguments of `insertReserved`. -/
structure ReservedInput where
  id : String
  userId : String
  serviceAccountId : String
  apiKeyId : String
  rendererVersion : String
  sourceSize : Nat
  sourceSha256 : Sha256
  timestamp : Timestamp
  sourceId : Option String := none
  entrypoint : String := "main.tex"
  projectRevisionId : Option String := none
  outputs : List RenderOutput := [.pdf]
  reservedOutputBytes : Nat

/-- `insertReserved`: a job that waits for its upload. -/
def insertReserved (input : ReservedInput) : JobRow where
  id := input.id
  userId := input.userId
  serviceAccountId := input.serviceAccountId
  apiKeyId := input.apiKeyId
  status := .reserved
  rendererVersion := input.rendererVersion
  sourceSize := input.sourceSize
  sourceSha256 := input.sourceSha256
  createdAt := input.timestamp
  updatedAt := input.timestamp
  sourceId := input.sourceId
  entrypoint := input.entrypoint
  projectRevisionId := input.projectRevisionId
  outputs := input.outputs
  reservedOutputBytes := input.reservedOutputBytes

/-- Arguments of `insertQueued`. -/
structure QueuedInput where
  id : String
  userId : String
  serviceAccountId : String
  apiKeyId : String
  rendererVersion : String
  entrypoint : String
  timestamp : Timestamp
  retryOfJobId : Option String := none
  projectRevisionId : Option String := none
  outputs : List RenderOutput := [.pdf]
  reservedOutputBytes : Nat

/-- `readySourceSql`: a ready source that is unexpired or still referenced by its owner. -/
def SourceRow.isReady (source : SourceRow) (ownerReferences : Nat) (timestamp : Timestamp) : Prop :=
  source.status = .ready ∧ (source.expiresAt > timestamp ∨ ownerReferences > 0)

instance (source : SourceRow) (ownerReferences : Nat) (timestamp : Timestamp) :
    Decidable (source.isReady ownerReferences timestamp) := by
  unfold SourceRow.isReady
  infer_instance

/-- `insertQueued`: a job over a ready source of the same user, whose size and digest it copies. -/
def insertQueued? (input : QueuedInput) (source : SourceRow) (ownerReferences : Nat) : Option JobRow :=
  if source.ownerUserId = input.userId ∧ source.isReady ownerReferences input.timestamp then
    some {
      id := input.id
      userId := input.userId
      serviceAccountId := input.serviceAccountId
      apiKeyId := input.apiKeyId
      status := .queued
      rendererVersion := input.rendererVersion
      sourceSize := source.size
      sourceSha256 := source.sha256
      createdAt := input.timestamp
      updatedAt := input.timestamp
      queuedAt := some input.timestamp
      retryOfJobId := input.retryOfJobId
      sourceId := some source.id
      entrypoint := input.entrypoint
      projectRevisionId := input.projectRevisionId
      outputs := input.outputs
      reservedOutputBytes := input.reservedOutputBytes }
  else none

/-- Arguments of `insertRetry`; `source` is the job being retried. -/
structure RetryInput where
  id : String
  source : JobRow
  rendererVersion : String
  timestamp : Timestamp
  reservedOutputBytes : Nat

/-- `insertRetry`: a queued copy of an earlier job. -/
def insertRetry (input : RetryInput) : JobRow where
  id := input.id
  userId := input.source.userId
  serviceAccountId := input.source.serviceAccountId
  apiKeyId := input.source.apiKeyId
  status := .queued
  rendererVersion := input.rendererVersion
  sourceSize := input.source.sourceSize
  sourceSha256 := input.source.sourceSha256
  createdAt := input.timestamp
  updatedAt := input.timestamp
  queuedAt := some input.timestamp
  retryOfJobId := some input.source.id
  sourceId := input.source.sourceId
  entrypoint := input.source.entrypoint
  projectRevisionId := input.source.projectRevisionId
  outputs := input.source.outputs
  reservedOutputBytes := input.reservedOutputBytes

namespace JobRow

/-- `transitionJob(from, to, { queued_at })`: the upload's guarded status changes. A terminal target
also sets `render_status`. -/
def transitionJob (source : List JobStatus) (target : JobStatus) (queuedAt : Option Timestamp)
    (now : Timestamp) (row : JobRow) : Option JobRow :=
  if row.status ∈ source then
    some { row with
      status := target
      updatedAt := now
      renderStatus := target.terminal? <|> row.renderStatus
      queuedAt := queuedAt <|> row.queuedAt }
  else none

/-- The statuses `cancel` ends at once; a running job is left to its worker. -/
def cancelsAtOnce : List JobStatus := [.reserved, .uploading, .queued, .validating]

def cancel (timestamp : Timestamp) (row : JobRow) : Option JobRow :=
  if row.status ∈ JobStatus.active then
    some { row with
      cancelRequestedAt := some timestamp
      updatedAt := timestamp
      renderStatus := if row.status ∈ cancelsAtOnce then some .canceled else row.renderStatus
      status := if row.status ∈ cancelsAtOnce then .canceled else row.status }
  else none

def restoreReservedAfterUploadFailure (timestamp : Timestamp) (row : JobRow) : Option JobRow :=
  if row.status = .uploading then some { row with status := .reserved, updatedAt := timestamp }
  else none

/-- `markDeleting`, for a user, an administrator or the smoke-test cleanup. -/
def markDeleting (timestamp : Timestamp) (row : JobRow) : Option JobRow :=
  row.status.terminal?.map fun terminal =>
    { row with
      renderStatus := some terminal
      status := .deleting
      deletionStatus := .pending
      deletionAttempts := 0
      deletionError := none
      deletionNextAttemptAt := none
      updatedAt := timestamp }

def attachProjectRevision (revisionId : String) (row : JobRow) : Option JobRow :=
  if row.projectRevisionId = none ∨ row.projectRevisionId = some revisionId then
    some { row with projectRevisionId := some revisionId }
  else none

/-- `PreviewsRepository.charge`: published preview bytes are added to the job's output. -/
def charge (bytes : Nat) (row : JobRow) : JobRow :=
  { row with outputSize := some (row.outputSize.getD 0 + bytes) }

end JobRow

end LatexRenderer
