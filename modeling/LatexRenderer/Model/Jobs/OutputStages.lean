import LatexRenderer.Model.Jobs.JobsRepository
import LatexRenderer.Model.Jobs.WorkerRepository

/-! # `job_output_stages`: its checks, its triggers and `OutputStagesRepository`

The two triggers run after every statement that sets `jobs.status`, whoever issues it, so a status
change of a job is always `Job.updateStatus`, which runs them.
-/

namespace LatexRenderer

namespace StageStatus

/-- `IN ('queued','running')`: the stage has not ended. -/
def isOpen (status : StageStatus) : Bool :=
  status == .queued || status == .running

/-- `CASE WHEN … ='running' THEN 'queued' ELSE … END`. -/
def recovered (status : StageStatus) : StageStatus :=
  if status = .running then .queued else status

/-- What `output_stages_terminal` writes for a new job status, where it fires. -/
def ofJob? : JobStatus → Option StageStatus
  | .failed => some .failed
  | .timeout => some .timeout
  | .canceled => some .canceled
  | .rejected => some .failed
  | _ => none

end StageStatus

/-- The `CHECK` constraints of `job_output_stages`. -/
structure StageRow.Checks (stage : StageRow) : Prop where
  sourceSha256 : stage.sourceSha256.hex.length = 64
  pdfStatus : stage.pdfStatus ≠ .skipped
  pdfGeneration : ∀ generation ∈ stage.pdfGeneration, 0 < generation
  svgGeneration : ∀ generation ∈ stage.svgGeneration, 0 < generation
  pdfSha256 : ∀ digest ∈ stage.pdfSha256, digest.hex.length = 64
  synctexSha256 : ∀ digest ∈ stage.synctexSha256, digest.hex.length = 64
  svgAttempt : 1 ≤ stage.svgAttempt ∧ stage.svgAttempt ≤ 8
  pdfSucceeded : stage.pdfStatus = .succeeded → stage.pdfGeneration.isSome ∧ stage.pdfSha256.isSome ∧
    stage.synctexSha256.isSome ∧ stage.pdfCompletedAt.isSome
  svgSucceeded : stage.svgStatus = .succeeded → stage.svgGeneration.isSome

namespace StageRow

/-- The first statement of `output_stages_terminal`: an open SVG stage ends. -/
def closeSvg (outcome : StageStatus) (job : JobRow) (stage : StageRow) : StageRow :=
  if stage.svgStatus.isOpen then
    { stage with
      svgStatus := if stage.pdfStatus ≠ .succeeded then .skipped else outcome
      svgCompletedAt := job.completedAt
      svgErrorCode := job.errorCode
      svgErrorMessage := job.errorMessage }
  else stage

/-- The second statement of `output_stages_terminal`: an open PDF stage ends. -/
def closePdf (outcome : StageStatus) (job : JobRow) (stage : StageRow) : StageRow :=
  if stage.pdfStatus.isOpen then
    { stage with
      pdfStatus := outcome
      pdfCompletedAt := job.completedAt
      pdfErrorCode := job.errorCode
      pdfErrorMessage := job.errorMessage }
  else stage

/-- `output_stages_terminal`, for the updated job row. -/
def terminalTrigger (job : JobRow) (stage : StageRow) : StageRow :=
  match StageStatus.ofJob? job.status with
  | some outcome => (stage.closeSvg outcome job).closePdf outcome job
  | none => stage

/-- `output_stages_recover`, for the job row before and after the update. -/
def recoverTrigger (old new : JobRow) (stage : StageRow) : StageRow :=
  if new.status = .queued ∧ old.status ∈ [.validating, .running] then
    { stage with pdfStatus := stage.pdfStatus.recovered, svgStatus := stage.svgStatus.recovered }
  else stage

/-- `owned`: the job is running, not being canceled, held by the caller and still about the same
source, entrypoint and revision. -/
def owned (fence : Fence) (job : JobRow) (stage : StageRow) : Prop :=
  job.ownedBy fence ∧ job.status = .running ∧ job.cancelRequestedAt = none ∧
    job.sourceSha256 = stage.sourceSha256 ∧ job.entrypoint = stage.entrypoint ∧
    job.sourceId = stage.sourceId ∧ job.projectRevisionId = stage.projectRevisionId

instance (fence : Fence) (job : JobRow) (stage : StageRow) : Decidable (stage.owned fence job) := by
  unfold owned
  infer_instance

/-- `start(job, "pdf")`. -/
def startPdf (fence : Fence) (job : JobRow) (stage : StageRow) : Option StageRow :=
  if stage.pdfStatus = .queued ∧ stage.owned fence job then some { stage with pdfStatus := .running }
  else none

/-- `start(job, "svg")`. -/
def startSvg (fence : Fence) (job : JobRow) (stage : StageRow) : Option StageRow :=
  if stage.svgStatus = .queued ∧ stage.owned fence job ∧ stage.pdfStatus = .succeeded then
    some { stage with svgStatus := .running }
  else none

/-- Input of `completePdf`. -/
structure PdfInput where
  storageGeneration : Nat
  sha256 : Sha256
  synctexSha256 : Sha256
  synctexBytes : Nat
  completedAt : Timestamp

/-- The `SET` of `completePdf`. -/
def withPdf (input : PdfInput) (stage : StageRow) : StageRow :=
  { stage with
    pdfStatus := .succeeded
    pdfGeneration := some input.storageGeneration
    pdfSha256 := some input.sha256
    synctexSha256 := some input.synctexSha256
    synctexBytes := input.synctexBytes
    pdfCompletedAt := some input.completedAt }

def completePdf (fence : Fence) (input : PdfInput) (job : JobRow) (stage : StageRow) :
    Option StageRow :=
  if stage.pdfStatus = .running ∧ stage.owned fence job then some (stage.withPdf input) else none

/-- Input of `completeSvg`. -/
structure SvgInput where
  storageGeneration : Nat
  status : StageStatus
  errorCode : Option String
  errorMessage : Option String
  completedAt : Timestamp

/-- The `SET` of `completeSvg`. -/
def withSvg (input : SvgInput) (stage : StageRow) : StageRow :=
  { stage with
    svgStatus := input.status
    svgErrorCode := input.errorCode
    svgErrorMessage := input.errorMessage
    svgCompletedAt := some input.completedAt
    svgGeneration := some input.storageGeneration }

def completeSvg (fence : Fence) (input : SvgInput) (job : JobRow) (stage : StageRow) :
    Option StageRow :=
  if stage.svgStatus = .running ∧ stage.owned fence job then some (stage.withSvg input) else none

/-- The second statement of `requeueSvg`. -/
def requeue (stage : StageRow) : StageRow :=
  { stage with
    svgStatus := .queued
    svgCompletedAt := none
    svgGeneration := none
    svgErrorCode := none
    svgErrorMessage := none
    svgAttempt := stage.svgAttempt + 1 }

end StageRow

/-- Arguments of `requeueSvg`, with the source row its subquery finds. -/
structure RequeueInput where
  userId : String
  now : Timestamp
  cutoff : Timestamp
  reservedBytes : Nat
  source : SourceRow
  ownerReferences : Nat

namespace Job

/-- A statement that sets `jobs.status`: the row is updated and the triggers run. -/
def updateStatus (update : JobRow → Option JobRow) (job : Job) : Option Job :=
  (update job.row).map fun row =>
    { job with
      row := row
      stages := job.stages.map fun stage => (stage.terminalTrigger row).recoverTrigger job.row row }

/-- A statement on `jobs` that leaves `status` out; no trigger runs. -/
def updateColumns (update : JobRow → Option JobRow) (job : Job) : Option Job :=
  (update job.row).map fun row => { job with row := row }

/-- A statement on the job's stage row. -/
def updateStage (update : JobRow → StageRow → Option StageRow) (job : Job) : Option Job :=
  (job.stages.bind (update job.row)).map fun stage => { job with stages := some stage }

/-- `initialize`: `INSERT OR IGNORE` of the stage row. -/
def initializeStages (fence : Fence) (rendererImage : String) (job : Job) : Option Job :=
  if job.row.ownedBy fence ∧ job.row.status ∈ [.validating, .running] ∧
      job.row.cancelRequestedAt = none ∧ .svg ∈ job.row.outputs ∧ job.stages.isNone then
    some { job with
      stages := some {
        sourceSha256 := job.row.sourceSha256
        sourceId := job.row.sourceId
        entrypoint := job.row.entrypoint
        projectRevisionId := job.row.projectRevisionId
        rendererImage := rendererImage } }
  else none

/-- The artifact that `requeueSvg` demands: the published PDF of the checkpoint. -/
def hasCheckpointPdf (stage : StageRow) (job : Job) : Bool :=
  job.artifacts.any fun artifact =>
    artifact.relativePath == "result.pdf" && artifact.type == .pdf &&
      artifact.storageGeneration == stage.pdfGeneration && stage.pdfGeneration.isSome &&
      some artifact.sha256 == stage.pdfSha256

/-- What `requeueSvg` demands of the checkpoint. -/
def canRequeueSvg (cutoff : Timestamp) (stage : StageRow) (job : Job) : Prop :=
  stage.pdfStatus = .succeeded ∧ stage.sourceSha256 = job.row.sourceSha256 ∧
    stage.entrypoint = job.row.entrypoint ∧ stage.sourceId = job.row.sourceId ∧
    stage.projectRevisionId = job.row.projectRevisionId ∧ job.hasCheckpointPdf stage ∧
    (∃ completed ∈ stage.pdfCompletedAt, completed > cutoff) ∧
    stage.svgStatus ∈ [.failed, .timeout, .canceled] ∧ stage.svgAttempt < 8

instance (cutoff : Timestamp) (stage : StageRow) (job : Job) :
    Decidable (job.canRequeueSvg cutoff stage) := by
  unfold canRequeueSvg
  infer_instance

/-- What `requeueSvg` demands of the job's source. -/
def sourceStillReady (source : SourceRow) (ownerReferences : Nat) (now : Timestamp) (job : Job) : Prop :=
  job.row.sourceId = some source.id ∧ source.ownerUserId = job.row.userId ∧
    source.sha256 = job.row.sourceSha256 ∧ source.size = job.row.sourceSize ∧
    source.isReady ownerReferences now

instance (source : SourceRow) (ownerReferences : Nat) (now : Timestamp) (job : Job) :
    Decidable (job.sourceStillReady source ownerReferences now) := by
  unfold sourceStillReady
  infer_instance

/-- The `UPDATE jobs` of `requeueSvg`. -/
def requeueRow (input : RequeueInput) (row : JobRow) : JobRow :=
  { row with
    status := .queued
    renderStatus := none
    queuedAt := some input.now
    updatedAt := input.now
    completedAt := none
    errorCode := none
    errorMessage := none
    exitCode := none
    cancelRequestedAt := none
    reservedOutputBytes := input.reservedBytes }

/-- `requeueSvg`: the job is queued again for its SVG stage only. -/
def requeueSvg (input : RequeueInput) (job : Job) : Option Job := do
  let stage ← job.stages
  guard (job.row.userId = input.userId ∧ job.row.status ∈ [.failed, .timeout, .canceled] ∧
    job.row.leaseOwner = none ∧ job.canRequeueSvg input.cutoff stage ∧
    job.sourceStillReady input.source input.ownerReferences input.now)
  let queued ← job.updateStatus fun row => some (requeueRow input row)
  some { queued with stages := queued.stages.map StageRow.requeue }

end Job

end LatexRenderer

/-! ## The cleanup script's steps on jobs

The script expires abandoned reservations, and deletes jobs in three steps: a claim, the removal of
the job's files, and the statement that records success or failure.
-/

namespace LatexRenderer

/-- What the claim of a job looks up outside the `jobs` row. -/
structure CleanupView where
  now : Timestamp
  cutoff : Timestamp
  downloadActive : Bool
  previewRunning : Bool

def maxCleanupAttempts : Nat := 10

/-- `nextRetry`: exponential back-off from five minutes up to a day. -/
def nextRetry (now : Timestamp) (attempt : Nat) : Timestamp :=
  now + min (300 * 2 ^ (attempt - 1)) 86400 * 1000

namespace JobRow

/-- The reservation expiry; `claimActive` is an unexpired claim of the job's upload ticket. -/
def expireReservation (now cutoff : Timestamp) (claimActive : Bool) (row : JobRow) : Option JobRow :=
  if row.status ∈ [.reserved, .uploading] ∧ row.updatedAt < cutoff ∧ claimActive = false then
    some { row with
      status := .expired
      renderStatus := some .expired
      completedAt := some now
      updatedAt := now
      errorCode := some "UPLOAD_EXPIRED" }
  else none

/-- `deletion_next_attempt_at IS NULL OR deletion_next_attempt_at<=?`. -/
def retryDue (now : Timestamp) (row : JobRow) : Prop :=
  ∀ next ∈ row.deletionNextAttemptAt, next ≤ now

instance (now : Timestamp) (row : JobRow) : Decidable (row.retryDue now) := by
  unfold retryDue
  infer_instance

/-- The three ways a job becomes a candidate for deletion; `since` is the start of its retention. -/
def deletionDue (view : CleanupView) (since : Timestamp) (row : JobRow) : Prop :=
  (row.deletionStatus = .retained ∧ row.status.terminal?.isSome ∧ since ≤ view.cutoff) ∨
  (row.status = .deleting ∧ row.deletionStatus ∈ [.retained, .pending, .deleting]) ∨
  (row.deletionStatus ∈ [.pending, .deleting, .retry] ∧ row.retryDue view.now)

instance (view : CleanupView) (since : Timestamp) (row : JobRow) :
    Decidable (row.deletionDue view since) := by
  unfold deletionDue
  infer_instance

/-- The claim. -/
def claimDeletion (view : CleanupView) (since : Timestamp) (row : JobRow) : Option JobRow :=
  if row.deletionDue view since ∧ view.downloadActive = false ∧ view.previewRunning = false then
    some { row with
      renderStatus := row.renderStatus <|> row.status.terminal?
      status := .deleting
      deletionStatus := .deleting
      deletionAttempts := row.deletionAttempts + 1
      deletionError := none
      deletionNextAttemptAt := none
      updatedAt := view.now }
  else none

/-- `status='deleting' AND deletion_status='deleting'`: the claim is still in force. -/
def deletionClaimed (row : JobRow) : Prop :=
  row.status = .deleting ∧ row.deletionStatus = .deleting

instance (row : JobRow) : Decidable row.deletionClaimed := by
  unfold deletionClaimed
  infer_instance

/-- The success of a deletion. -/
def finishDeletion (now : Timestamp) (row : JobRow) : Option JobRow :=
  if row.deletionClaimed then
    some { row with
      status := .deleted
      deletionStatus := .deleted
      deletionError := none
      deletionNextAttemptAt := none
      deletedAt := some now
      updatedAt := now }
  else none

/-- The failure of a deletion: the job gets its render status back and is tried again later. -/
def failDeletion (now : Timestamp) (error : String) (row : JobRow) : Option JobRow :=
  if row.deletionClaimed then
    some { row with
      status := (row.renderStatus.map TerminalStatus.toJob).getD row.status
      deletionStatus := if row.deletionAttempts < maxCleanupAttempts then .retry else .failed
      deletionError := some error
      deletionNextAttemptAt :=
        if row.deletionAttempts < maxCleanupAttempts then some (nextRetry now row.deletionAttempts)
        else none
      updatedAt := now }
  else none

end JobRow

namespace Job

/-- `COALESCE(pdf_completed_at of a succeeded PDF stage, completed_at, updated_at)`. -/
def retentionStart (job : Job) : Timestamp :=
  let checkpoint := job.stages.bind fun stage =>
    if stage.pdfStatus = .succeeded then stage.pdfCompletedAt else none
  (checkpoint <|> job.row.completedAt).getD job.row.updatedAt

def claimDeletion (view : CleanupView) (job : Job) : Option Job :=
  job.updateStatus (·.claimDeletion view job.retentionStart)

/-- The transaction after the files are gone: the artifact rows go with the job's status. -/
def finishDeletion (now : Timestamp) (job : Job) : Option Job :=
  (job.updateStatus (·.finishDeletion now)).map fun deleted => { deleted with artifacts := [] }

def failDeletion (now : Timestamp) (error : String) (job : Job) : Option Job :=
  job.updateStatus (·.failDeletion now error)

end Job

end LatexRenderer
