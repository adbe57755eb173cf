import LatexRenderer.Machine.Table
import LatexRenderer.Model.Jobs.System

/-! # `PreviewsRepository` and `processPreview`

The requests for preview pages of one job. A request that is being rendered reserves the bytes its
page may take; the transaction that publishes the page frees the reservation and charges the page to
the job.
-/

namespace LatexRenderer

inductive PreviewStatus where
  | queued | running | succeeded | failed
deriving DecidableEq, Repr

/-- A row of `job_preview_requests`, under its job. -/
structure PreviewRow where
  sequence : Nat
  page : Nat
  status : PreviewStatus
  attempt : Nat := 0
  reservedBytes : Nat := 0
  leaseOwner : Option String := none
  leaseExpiresAt : Option Timestamp := none
  errorCode : Option String := none
  createdAt : Timestamp
  updatedAt : Timestamp

/-- `attempt BETWEEN 0 AND 3`. -/
def maxPreviewAttempts : Nat := 3

/-- A run of `processPreview` that has reserved its bytes: the request and the attempt it claimed, and
`limit`, the most its page may take. -/
structure PreviewRun where
  sequence : Nat
  attempt : Nat
  workerId : String
  limit : Nat
deriving DecidableEq

namespace PreviewRow

/-- `request`, for a page without a request: the row it inserts. -/
def inserted (sequence page : Nat) (timestamp : Timestamp) : PreviewRow where
  sequence := sequence
  page := page
  status := .queued
  createdAt := timestamp
  updatedAt := timestamp

/-- `request`, for a page whose last attempt failed a minute ago or more. -/
def requestAgain (timestamp : Timestamp) (row : PreviewRow) : Option PreviewRow :=
  if row.status = .failed ∧ row.attempt < maxPreviewAttempts ∧ row.updatedAt + 60000 ≤ timestamp then
    some { row with status := .queued, errorCode := none, updatedAt := timestamp }
  else none

def claim (workerId : String) (timestamp : Timestamp) (row : PreviewRow) : Option PreviewRow :=
  if row.status = .queued ∧ row.attempt < maxPreviewAttempts then
    some { row with
      status := .running
      attempt := row.attempt + 1
      leaseOwner := some workerId
      leaseExpiresAt := some (timestamp + 120000)
      updatedAt := timestamp }
  else none

def ownedBy (workerId : String) (attempt : Nat) (row : PreviewRow) : Prop :=
  row.status = .running ∧ row.leaseOwner = some workerId ∧ row.attempt = attempt

instance (workerId : String) (attempt : Nat) (row : PreviewRow) :
    Decidable (row.ownedBy workerId attempt) := by
  unfold ownedBy
  infer_instance

/-- The `UPDATE` of `reserve`. -/
def reserve (workerId : String) (attempt bytes : Nat) (row : PreviewRow) : Option PreviewRow :=
  if row.ownedBy workerId attempt ∧ row.reservedBytes = 0 ∧ 1 ≤ bytes then
    some { row with reservedBytes := bytes }
  else none

/-- `claimRecovery`: the row must still be owned as it was when it was found stale. -/
def claimRecovery (staleOwner : String) (attempt : Nat) (workerId : String) (timestamp : Timestamp)
    (row : PreviewRow) : Option PreviewRow :=
  if row.ownedBy staleOwner attempt ∧ ∃ expires ∈ row.leaseExpiresAt, expires < timestamp then
    some { row with
      leaseOwner := some workerId
      leaseExpiresAt := some (timestamp + 120000)
      updatedAt := timestamp }
  else none

def finish (workerId : String) (attempt : Nat) (errorCode : Option String) (timestamp : Timestamp)
    (row : PreviewRow) : Option PreviewRow :=
  if row.ownedBy workerId attempt then
    some { row with
      status := if errorCode.isSome then .failed else .succeeded
      errorCode := errorCode
      reservedBytes := 0
      leaseOwner := none
      leaseExpiresAt := none
      updatedAt := timestamp }
  else none

end PreviewRow

/-- `10 * 1024 * 1024`: the most a preview page may take. -/
def maxPreviewBytes : Nat := 10 * 1024 * 1024

/-- One job with its preview requests, and what running processes remember of it: the claims whose
`processJob` has moved the job to running, and the runs of `processPreview` that have reserved bytes. -/
structure JobRecord where
  job : Job
  previews : List PreviewRow := []
  rendering : List Fence := []
  previewRuns : List PreviewRun := []

namespace JobRecord

open Machine

/-- `processJob` finalizes only a job that it moved to running; `requeueSvg` is part of the SVG retry
transaction and no action of its own. -/
def follows (record : JobRecord) : JobAction → Bool
  | .worker fence (.finalize ..) => fence ∈ record.rendering
  | .requeueSvg _ => false
  | _ => true

/-- The claims that have moved the job to running, after an action. -/
def renderingAfter (record : JobRecord) : JobAction → List Fence
  | .worker fence (.startRunning _) => fence :: record.rendering
  | _ => record.rendering

/-- The preview requests after an action: those of a deleted job go with its artifacts. -/
def previewsAfter (record : JobRecord) : JobAction → List PreviewRow
  | .finishDeletion _ => []
  | _ => record.previews

/-- An action on the job itself. -/
def act (maxOutputBytes : Nat) (action : JobAction) (record : JobRecord) : Option JobRecord :=
  if record.follows action then
    (action.run maxOutputBytes record.job).map fun job =>
      { record with
        job := job
        previews := record.previewsAfter action
        rendering := record.renderingAfter action }
  else none

/-- A statement on the request with this number. -/
def updatePreview (sequence : Nat) (change : PreviewRow → Option PreviewRow) (record : JobRecord) :
    Option JobRecord :=
  (update? (·.sequence == sequence) change record.previews).map fun previews =>
    { record with previews := previews }

/-- `request`, for a new page. `AUTOINCREMENT` gives a number that no request had before. -/
def requestPreview (sequence page : Nat) (timestamp : Timestamp) (record : JobRecord) :
    Option JobRecord :=
  if (record.previews.any fun row => row.sequence == sequence || row.page == page) ||
      (record.previewRuns.any fun run => run.sequence == sequence) then none
  else some { record with previews := record.previews ++ [.inserted sequence page timestamp] }

/-- `reserve` within its transaction, once the user's quota has room for the limit; the run goes on with
the limit it reserved. -/
def reservePreview (maxOutputBytes : Nat) (run : PreviewRun) (record : JobRecord) : Option JobRecord :=
  if run.limit ≤ maxPreviewBytes ∧ record.job.row.outputSize.getD 0 + run.limit ≤ maxOutputBytes then
    (record.updatePreview run.sequence (·.reserve run.workerId run.attempt run.limit)).map fun reserved =>
      { reserved with previewRuns := run :: record.previewRuns }
  else none

/-- The transaction that publishes a page: the request is finished, the page's artifact inserted and its
size, which the run has checked against its limit, charged to the job. -/
def publishPreview (run : PreviewRun) (page : ArtifactRow) (now : Timestamp) (record : JobRecord) :
    Option JobRecord := do
  guard (run ∈ record.previewRuns ∧ page.size ≤ run.limit)
  let finished ← record.updatePreview run.sequence fun row =>
    if ∃ expires ∈ row.leaseExpiresAt, expires > now then row.finish run.workerId run.attempt none now
    else none
  let inserted ← record.job.insertArtifact page
  some { finished with job := { inserted with row := inserted.row.charge page.size } }

end JobRecord

end LatexRenderer
