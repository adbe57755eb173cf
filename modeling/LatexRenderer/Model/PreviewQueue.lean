import Mathlib.Data.List.MinMax
import Mathlib.Data.Prod.Lex
import LatexRenderer.Model.Downloads

/-! # The queue of preview requests

`PreviewsRepository` over all jobs: a request waits until no job and no other preview occupies the
renderer, and the oldest one is claimed first. Each step is one transaction of a caller, with what its
statements read of the requests of other jobs.
-/

namespace LatexRenderer

open Machine

/-- A row of `job_preview_documents`. -/
structure PreviewDocument where
  jobId : String
  pdfArtifactId : String
  pdfSha256 : Sha256
  pageCount : Nat

/-- A row of `job_preview_requests` with its job. -/
structure PreviewRequest where
  jobId : String
  row : PreviewRow

/-- The most requests that may be queued or running. -/
def maxWaitingPreviews : Nat := 32

/-- The most requests of one user that may be queued or running. -/
def maxOwnedPreviews : Nat := 8

/-- `status IN ('queued','running')`. -/
def PreviewRow.waits (row : PreviewRow) : Bool :=
  row.status == .queued || row.status == .running

/-- The order of `claim`: `created_at,sequence`. -/
def PreviewRequest.age (request : PreviewRequest) : Nat ×ₗ Nat :=
  toLex (request.row.createdAt, request.row.sequence)

/-- A job that keeps previews from being claimed: `status IN ('validating','running')`, or canceled with
its lease still held. -/
def JobRow.occupiesRenderer (row : JobRow) : Bool :=
  decide (row.status ∈ [.validating, .running]) || row.status == .canceled && row.leaseOwner.isSome

/-- `2 ** 40 + sequence * 4 + attempt`: the storage generation of a published page. -/
def PreviewRun.generation (run : PreviewRun) : Nat :=
  2 ^ 40 + run.sequence * 4 + run.attempt

/-- The path of a published page. -/
def previewPath (page : Nat) : String :=
  "previews/page-" ++ toString page ++ ".png"

/-- The artifact row of a published page. -/
def PreviewRun.artifact (run : PreviewRun) (artifactId : String) (page size : Nat) (sha256 : Sha256)
    (createdAt : Timestamp) : ArtifactRow where
  id := artifactId
  type := .preview
  relativePath := previewPath page
  storageGeneration := some run.generation
  size := size
  sha256 := sha256
  createdAt := createdAt

def JobRecord.previewRunning (record : JobRecord) : Bool :=
  record.previews.any (·.status == .running)

def JobRecord.waitingPreviews (record : JobRecord) : Nat :=
  record.previews.countP (·.waits)

namespace Database

/-- The table `job_preview_requests`. -/
def previewRequests (db : Database) : List PreviewRequest :=
  db.jobs.flatMap fun record => record.previews.map fun row => ⟨record.job.row.id, row⟩

/-- `SELECT 1 FROM job_preview_requests WHERE status='running'`. -/
def previewRunning (db : Database) : Bool :=
  db.jobs.any (·.previewRunning)

def previewsBusy (db : Database) : Bool :=
  db.previewRunning || db.jobs.any (·.job.row.occupiesRenderer)

/-- The requests that are queued or running. -/
def waitingPreviews (db : Database) : Nat :=
  total (·.waitingPreviews) db.jobs

/-- The requests of one user that are queued or running. -/
def ownedWaitingPreviews (userId : String) (db : Database) : Nat :=
  total (·.waitingPreviews) (db.jobs.filter (·.job.row.userId == userId))

/-- The query of `claim`. -/
def nextPreview? (db : Database) : Option PreviewRequest :=
  (db.previewRequests.filter (·.row.status == .queued)).argmin PreviewRequest.age

/-- A transaction with what its statements read of the preview requests. -/
def seeingPreviews (db : Database) : DatabaseAction → DatabaseAction
  | .job jobId (.claimNext workerId now leaseExpiresAt queuedBefore _) =>
    .job jobId (.claimNext workerId now leaseExpiresAt queuedBefore db.previewRunning)
  | .job jobId (.claimDeletion view) =>
    .job jobId (.claimDeletion { view with
      previewRunning := ((db.jobs.find? (·.job.row.id == jobId)).map (·.previewRunning)).getD false })
  | action => action

end Database

/-- The transactions that `PreviewsRepository` leads to, but for the end of a failed request and the
claim of a recovery run, which look at their own row only. -/
def DatabaseAction.ofPreviewQueue : DatabaseAction → Bool
  | .requestPreview .. | .requestPreviewAgain .. | .claimPreview .. | .reservePreview ..
  | .publishPreview .. => true
  | _ => false

/-- The database with the documents that previews are made of, the last number that
`job_preview_requests` has given, and every id that `newId` has given to a job. -/
structure PreviewSystem where
  db : Database := {}
  documents : List PreviewDocument := []
  lastSequence : Nat := 0
  jobIds : List String := []

namespace PreviewSystem

def document (jobId : String) (system : PreviewSystem) : Option PreviewDocument :=
  system.documents.find? (·.jobId == jobId)

/-- `verifiedPdf`: the PDF of the document, while it can be downloaded. -/
def verifiedPdf (cutoff : Timestamp) (jobId : String) (system : PreviewSystem) : Option ArtifactRow := do
  let document ← system.document jobId
  let record ← system.db.jobs.find? (·.job.row.id == jobId)
  let pdf ← record.job.getDownloadable cutoff "result.pdf"
  if pdf.id = document.pdfArtifactId ∧ pdf.sha256 = document.pdfSha256 then some pdf else none

def get (jobId : String) (page : Nat) (system : PreviewSystem) : Option PreviewRow := do
  let record ← system.db.jobs.find? (·.job.row.id == jobId)
  record.previews.find? (·.page == page)

/-- The bounds that `request` counts, over all users and over the user of the job. -/
def assertQueueRoom (jobId : String) (system : PreviewSystem) : Except AppError Unit :=
  let owned := ((system.db.jobs.find? (·.job.row.id == jobId)).map fun record =>
    system.db.ownedWaitingPreviews record.job.row.userId).getD 0
  if system.db.waitingPreviews ≥ maxWaitingPreviews ∨ owned ≥ maxOwnedPreviews then
    throw ⟨"PREVIEW_QUEUE_FULL", "Preview queue is full", 503⟩
  else return ()

/-- `request`: the statement it makes, if any. `sequence` is the number a new row would get. -/
def request (jobId : String) (sequence page : Nat) (timestamp cutoff : Timestamp)
    (system : PreviewSystem) : Except AppError (Option DatabaseAction) :=
  match system.document jobId, system.verifiedPdf cutoff jobId with
  | some document, some _ =>
    if page < 1 ∨ page > document.pageCount then
      throw ⟨"PREVIEW_PAGE_INVALID", "Preview page is outside the PDF", 404⟩
    else match system.get jobId page with
      | none => do
        system.assertQueueRoom jobId
        return some (.requestPreview jobId sequence page timestamp)
      | some prior =>
        if prior.status ≠ .failed then return none
        else if prior.attempt ≥ maxPreviewAttempts ∨ timestamp < prior.updatedAt + 60000 then
          throw ⟨"PREVIEW_UNAVAILABLE", "Preview generation is temporarily unavailable", 503⟩
        else do
          system.assertQueueRoom jobId
          return some (.requestPreviewAgain jobId prior.sequence timestamp)
  | _, _ => throw ⟨"ARTIFACT_NOT_FOUND", "Artifact does not exist", 404⟩

/-- `ON DELETE CASCADE`: a document goes with its PDF. -/
def keepsDocument (db : Database) (document : PreviewDocument) : Bool :=
  db.jobs.any fun record => record.job.row.id == document.jobId &&
    record.job.artifacts.any (·.id == document.pdfArtifactId)

/-- A committed transaction and its cascade. `newId` never gives an id twice. -/
def commit (limits : Limits) (action : DatabaseAction) (system : PreviewSystem) : Option PreviewSystem :=
  if action.newJobId?.any (· ∈ system.jobIds) then none
  else (action.run limits system.db).map fun db =>
    { system with
      db := db
      documents := system.documents.filter (keepsDocument db)
      jobIds := action.newJobId?.toList ++ system.jobIds }

/-- A transaction of any other program. -/
def transact (limits : Limits) (action : DatabaseAction) (system : PreviewSystem) :
    Option PreviewSystem :=
  if action.ofPreviewQueue then none else system.commit limits (system.db.seeingPreviews action)

/-- The commit of either processor that inserts a PDF and registers it. -/
def register (limits : Limits) (jobId : String) (fence : Fence) (operation : WorkerOperation)
    (pageCount : Nat) (system : PreviewSystem) : Option PreviewSystem := do
  guard (1 ≤ pageCount ∧ pageCount ≤ 100 ∧ (system.document jobId).isNone)
  let committed ← system.transact limits (.job jobId (.worker fence operation))
  let record ← committed.db.jobs.find? (·.job.row.id == jobId)
  let pdf ← record.job.artifacts.find? (·.type == .pdf)
  return { committed with documents := committed.documents ++ [⟨jobId, pdf.id, pdf.sha256, pageCount⟩] }

/-- The transaction around `request`. `AUTOINCREMENT` gives a number above all earlier ones. -/
def enqueue (limits : Limits) (jobId : String) (sequence page : Nat) (timestamp cutoff : Timestamp)
    (system : PreviewSystem) : Option PreviewSystem := do
  guard (system.lastSequence < sequence)
  match ← (system.request jobId sequence page timestamp cutoff).toOption with
  | none => return system
  | some statement => ({ system with lastSequence := sequence }).commit limits statement

/-- `claim`: the oldest queued request, while nothing occupies the renderer. -/
def claim (limits : Limits) (workerId : String) (timestamp : Timestamp) (system : PreviewSystem) :
    Option (PreviewSystem × PreviewRequest) := do
  guard (system.db.previewsBusy = false)
  let next ← system.db.nextPreview?
  let claimed ← next.row.claim workerId timestamp
  let after ← system.commit limits (.claimPreview next.jobId next.row.sequence workerId timestamp)
  return (after, ⟨next.jobId, claimed⟩)

/-- The first transaction of `processPreview`. -/
def reserve (limits : Limits) (jobId : String) (run : PreviewRun) (cutoff : Timestamp)
    (system : PreviewSystem) : Option PreviewSystem := do
  let _ ← system.verifiedPdf cutoff jobId
  system.commit limits (.reservePreview jobId run)

/-- The last transaction of `processPreview`: the page of the request is published. A request keeps the
number and the page it was claimed with. -/
def publish (limits : Limits) (jobId : String) (page : Nat) (run : PreviewRun) (artifactId : String)
    (size : Nat) (sha256 : Sha256) (now cutoff : Timestamp) (system : PreviewSystem) :
    Option PreviewSystem := do
  let _ ← system.verifiedPdf cutoff jobId
  let row ← system.get jobId page
  guard (row.sequence = run.sequence)
  system.commit limits (.publishPreview jobId run (run.artifact artifactId page size sha256 now) now)

end PreviewSystem

/-- One transaction of any of the programs. -/
inductive PreviewAction where
  | transact (action : DatabaseAction)
  | register (jobId : String) (fence : Fence) (operation : WorkerOperation) (pageCount : Nat)
  | enqueue (jobId : String) (sequence page : Nat) (timestamp cutoff : Timestamp)
  | claim (workerId : String) (timestamp : Timestamp)
  | reserve (jobId : String) (run : PreviewRun) (cutoff : Timestamp)
  | publish (jobId : String) (page : Nat) (run : PreviewRun) (artifactId : String) (size : Nat)
      (sha256 : Sha256) (now cutoff : Timestamp)

/-- The effect of a transaction; `none` is one that throws or changes nothing. -/
def PreviewAction.run (limits : Limits) (system : PreviewSystem) : PreviewAction → Option PreviewSystem
  | .transact action => system.transact limits action
  | .register jobId fence operation pageCount => system.register limits jobId fence operation pageCount
  | .enqueue jobId sequence page timestamp cutoff =>
    system.enqueue limits jobId sequence page timestamp cutoff
  | .claim workerId timestamp => (system.claim limits workerId timestamp).map (·.1)
  | .reserve jobId run cutoff => system.reserve limits jobId run cutoff
  | .publish jobId page run artifactId size sha256 now cutoff =>
    system.publish limits jobId page run artifactId size sha256 now cutoff

/-- The system from empty tables on, under any sequence of transactions. -/
def previewMachine (limits : Limits) : LabeledMachine PreviewSystem PreviewAction :=
  ofPartial (fun system => system.db.jobs = [] ∧ system.db.sources = [] ∧ system.db.trees = [] ∧
    system.documents = [] ∧ system.lastSequence = 0 ∧ system.jobIds = []) (PreviewAction.run limits)

end LatexRenderer
