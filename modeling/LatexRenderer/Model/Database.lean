import LatexRenderer.Model.Admission

/-! # The transactions on jobs, sources, previews and cached source trees

A `DatabaseAction` is one committed transaction of any of the programs with the values its caller
supplies. The services that create jobs share the admission checks and differ in where the new row comes
from; their per-job output reservation is the worker's output limit.
-/

namespace LatexRenderer

open Machine

/-- Input of the direct ticket creation. -/
structure TicketInput where
  jobId : String
  sourceId : String
  userId : String
  serviceAccountId : String
  apiKeyId : String
  rendererVersion : String
  size : Nat
  sha256 : Sha256
  timestamp : Timestamp
  expiresAt : Timestamp
  outputs : List RenderOutput

/-- Input of the creation from a source. `ownerReferences` is the count of `readySourceSql`. -/
structure SourceJobInput where
  jobId : String
  sourceId : String
  userId : String
  serviceAccountId : String
  apiKeyId : String
  rendererVersion : String
  entrypoint : String
  timestamp : Timestamp
  projectRevisionId : Option String
  outputs : List RenderOutput
  ownerReferences : Nat

/-- Input of a retry; `previous` is the row of the retried job as it was read before the transaction. -/
structure RetryJobInput where
  jobId : String
  previous : JobRow
  rendererVersion : String
  timestamp : Timestamp
  ownerReferences : Nat

/-- Input of an SVG retry. -/
structure SvgRetryInput where
  jobId : String
  userId : String
  timestamp : Timestamp
  cutoff : Timestamp
  ownerReferences : Nat

namespace Database

/-- `INSERT INTO jobs`: the id must be new. -/
def insertJob (row : JobRow) (db : Database) : Option Database :=
  if db.jobs.any (·.job.row.id == row.id) then none
  else some { db with jobs := db.jobs ++ [{ job := { row := row } }] }

/-- `INSERT INTO sources`: the id must be new. -/
def insertSource (row : SourceRow) (db : Database) : Option Database :=
  if db.sources.any (·.id == row.id) then none else some { db with sources := db.sources ++ [row] }

/-- A statement or transaction on one job with its previews. -/
def updateJob (jobId : String) (change : JobRecord → Option JobRecord) (db : Database) :
    Option Database :=
  (update? (·.job.row.id == jobId) change db.jobs).map fun jobs => { db with jobs := jobs }

/-- A statement on one source. -/
def updateSource (sourceId : String) (change : SourceRow → Option SourceRow) (db : Database) :
    Option Database :=
  (update? (·.id == sourceId) change db.sources).map fun sources => { db with sources := sources }

/-- A statement on one cached tree. -/
def updateTree (treeId : String) (change : SourceTreeRow → Option SourceTreeRow) (db : Database) :
    Option Database :=
  (update? (·.id == treeId) change db.trees).map fun trees => { db with trees := trees }

/-- `createLegacy` and the administrator's `createRender`: a reserved source and a job that waits for its
upload. -/
def createRender (limits : Limits) (input : TicketInput) (db : Database) : Option Database := do
  (assertAccepting ticketTexts limits db input.userId input.serviceAccountId
    (input.size + limits.maxOutputBytes)).toOption
  let reserved ← db.insertSource (.insertReserved {
    id := input.sourceId
    ownerUserId := input.userId
    size := input.size
    sha256 := input.sha256
    timestamp := input.timestamp
    expiresAt := input.expiresAt })
  reserved.insertJob (insertReserved {
    id := input.jobId
    userId := input.userId
    serviceAccountId := input.serviceAccountId
    apiKeyId := input.apiKeyId
    rendererVersion := input.rendererVersion
    sourceSize := input.size
    sourceSha256 := input.sha256
    timestamp := input.timestamp
    sourceId := some input.sourceId
    outputs := input.outputs
    reservedOutputBytes := limits.maxOutputBytes })

/-- `createFromSource`, `createRenderFromSource` and the remote `createRender`: a queued job over a ready
source that holds its entrypoint. -/
def createRenderFromSource (texts : AdmissionTexts) (limits : Limits) (input : SourceJobInput)
    (db : Database) : Option Database := do
  (assertAccepting texts limits db input.userId input.serviceAccountId limits.maxOutputBytes).toOption
  let source ← db.sources.find? (·.id == input.sourceId)
  guard (input.entrypoint ∈ source.paths)
  let row ← insertQueued? {
    id := input.jobId
    userId := input.userId
    serviceAccountId := input.serviceAccountId
    apiKeyId := input.apiKeyId
    rendererVersion := input.rendererVersion
    entrypoint := input.entrypoint
    timestamp := input.timestamp
    projectRevisionId := input.projectRevisionId
    outputs := input.outputs
    reservedOutputBytes := limits.maxOutputBytes } source input.ownerReferences
  db.insertJob row

/-- The argument that both retries give to `insertRetry`. -/
def insertRetryInput (limits : Limits) (input : RetryJobInput) : RetryInput where
  id := input.jobId
  source := input.previous
  rendererVersion := input.rendererVersion
  timestamp := input.timestamp
  reservedOutputBytes := limits.maxOutputBytes

/-- The administrator's `retry` and the remote `retryRender`: a queued copy of an ended job over its
source, which must be ready. -/
def retryRender (texts : AdmissionTexts) (limits : Limits) (input : RetryJobInput) (db : Database) :
    Option Database := do
  guard input.previous.status.terminal?.isSome
  let sourceId ← input.previous.sourceId
  (assertAccepting texts limits db input.previous.userId input.previous.serviceAccountId
    limits.maxOutputBytes).toOption
  let source ← db.sources.find? (·.id == sourceId)
  guard (source.isReady input.ownerReferences input.timestamp)
  db.insertJob (insertRetry (insertRetryInput limits input))

/-- `SvgRetryOperations.retry`: only what the job's output may still grow by is asked of the storage. -/
def retrySvg (limits : Limits) (input : SvgRetryInput) (db : Database) : Option Database := do
  let record ← db.jobs.find? (·.job.row.id == input.jobId)
  guard (record.job.row.userId = input.userId)
  (assertAccepting svgRetryTexts limits db input.userId record.job.row.serviceAccountId
    (limits.maxOutputBytes - record.job.row.outputSize.getD 0)).toOption
  let source ← db.sources.find? fun row => record.job.row.sourceId == some row.id
  db.updateJob input.jobId fun record =>
    (record.job.requeueSvg {
      userId := input.userId
      now := input.timestamp
      cutoff := input.cutoff
      reservedBytes := limits.maxOutputBytes
      source := source
      ownerReferences := input.ownerReferences }).map fun job => { record with job := job }

/-- The source tickets, the administrator's `createSource`, the remote `beginSourceUpload` and the stored
archives: a source that waits for its content. -/
def reserveSource (limits : Limits) (input : SourceReservation) (db : Database) : Option Database := do
  (assertStorage limits db input.ownerUserId input.size).toOption
  (assertSourceWritable db).toOption
  db.insertSource (.insertReserved input)

def discardReservation (sourceId : String) (db : Database) : Database :=
  let referenced := db.jobs.any fun record => record.job.row.sourceId == some sourceId
  { db with sources := db.sources.filter fun row => !(row.id == sourceId && row.discardable referenced) }

/-- The transaction of `processPreview` that reserves the bytes of a page. -/
def reservePreview (limits : Limits) (jobId : String) (run : PreviewRun) (db : Database) :
    Option Database := do
  let record ← db.jobs.find? (·.job.row.id == jobId)
  guard (db.storageUsageForUser record.job.row.userId + run.limit ≤ limits.maxUserStorageBytes)
  db.updateJob jobId (·.reservePreview limits.maxOutputBytes run)

/-- `ownedJob` of the source tree cache: the job runs under this claim over the tree's source. -/
def ownsTree (row : SourceTreeRow) (jobId : String) (generation : Nat) (db : Database) : Bool :=
  db.jobs.any fun record =>
    let job := record.job.row
    job.id == jobId && job.leaseGeneration == generation && job.leaseOwner.isSome &&
      decide (job.status ∈ [.validating, .running]) && job.sourceId == some row.sourceId &&
      job.userId == row.ownerUserId &&
      db.sources.any fun source => source.id == row.sourceId && source.ownerUserId == job.userId &&
        source.status == .ready && source.sha256 == job.sourceSha256 && source.size == job.sourceSize

def reserveTree (limits : Limits) (row : SourceTreeRow) (jobId : String) (generation : Nat)
    (db : Database) : Option Database :=
  if db.ownsTree row jobId generation ∧ db.trees.length < limits.maxSourceTrees ∧
      total (·.reservedBytes) db.trees + row.reservedBytes ≤ limits.globalTreeBytes ∧
      total (·.reservedBytes) (db.trees.filter (·.ownerUserId == row.ownerUserId)) + row.reservedBytes
        ≤ limits.userTreeBytes ∧
      db.storageUsageForUser row.ownerUserId + row.reservedBytes ≤ limits.maxUserStorageBytes ∧
      (db.trees.any fun tree => tree.identity == row.identity || tree.id == row.id) = false then
    some { db with trees := db.trees ++ [row] }
  else none

/-- `publish`, `invalidate` and the collector's claim set the status of a tree. -/
def setTreeStatus (treeId : String) (source : List SourceTreeStatus) (target : SourceTreeStatus)
    (db : Database) : Option Database :=
  db.updateTree treeId fun row => if row.status ∈ source then some { row with status := target } else none

/-- The collector deletes a claimed tree. -/
def deleteTree (treeId : String) (db : Database) : Database :=
  { db with trees := db.trees.filter fun row => !(row.id == treeId && row.status == .deleting) }

/-- The cleanup script forgets a job that was deleted long ago. -/
def forgetJob (jobId : String) (db : Database) : Database :=
  { db with
    jobs := db.jobs.filter fun record =>
      !(record.job.row.id == jobId && record.job.row.status == .deleted) }

end Database

/-- One committed transaction. -/
inductive DatabaseAction where
  | createRender (input : TicketInput)
  | createRenderFromSource (texts : AdmissionTexts) (input : SourceJobInput)
  | retryRender (texts : AdmissionTexts) (input : RetryJobInput)
  | retrySvg (input : SvgRetryInput)
  | reserveSource (input : SourceReservation)
  | discardReservation (sourceId : String)
  | source (sourceId : String) (action : SourceAction)
  | job (jobId : String) (action : JobAction)
  | requestPreview (jobId : String) (sequence page : Nat) (timestamp : Timestamp)
  | requestPreviewAgain (jobId : String) (sequence : Nat) (timestamp : Timestamp)
  | claimPreview (jobId : String) (sequence : Nat) (workerId : String) (timestamp : Timestamp)
  | recoverPreview (jobId : String) (sequence attempt : Nat) (staleOwner workerId : String)
      (timestamp : Timestamp)
  | failPreview (jobId : String) (sequence attempt : Nat) (workerId errorCode : String)
      (timestamp : Timestamp)
  | reservePreview (jobId : String) (run : PreviewRun)
  | publishPreview (jobId : String) (run : PreviewRun) (page : ArtifactRow) (timestamp : Timestamp)
  | reserveTree (row : SourceTreeRow) (jobId : String) (generation : Nat)
  | publishTree (treeId : String)
  | invalidateTree (treeId : String)
  | collectTree (treeId : String)
  | deleteTree (treeId : String)
  | forgetJob (jobId : String)
  | setMaintenanceMode (mode : MaintenanceMode)

/-- The id that `newId` gives to the job a transaction inserts. -/
def DatabaseAction.newJobId? : DatabaseAction → Option String
  | .createRender input => some input.jobId
  | .createRenderFromSource _ input => some input.jobId
  | .retryRender _ input => some input.jobId
  | _ => none

/-- The effect of a transaction; `none` is one that throws or changes nothing. -/
def DatabaseAction.run (limits : Limits) (db : Database) : DatabaseAction → Option Database
  | .createRender input => db.createRender limits input
  | .createRenderFromSource texts input => db.createRenderFromSource texts limits input
  | .retryRender texts input => db.retryRender texts limits input
  | .retrySvg input => db.retrySvg limits input
  | .reserveSource input => db.reserveSource limits input
  | .discardReservation sourceId => some (db.discardReservation sourceId)
  | .source sourceId action => db.updateSource sourceId (action.run ·)
  | .job jobId action => db.updateJob jobId (·.act limits.maxOutputBytes action)
  | .requestPreview jobId sequence page timestamp =>
    db.updateJob jobId (·.requestPreview sequence page timestamp)
  | .requestPreviewAgain jobId sequence timestamp =>
    db.updateJob jobId (·.updatePreview sequence (·.requestAgain timestamp))
  | .claimPreview jobId sequence workerId timestamp =>
    db.updateJob jobId (·.updatePreview sequence (·.claim workerId timestamp))
  | .recoverPreview jobId sequence attempt staleOwner workerId timestamp =>
    db.updateJob jobId
      (·.updatePreview sequence (·.claimRecovery staleOwner attempt workerId timestamp))
  | .failPreview jobId sequence attempt workerId errorCode timestamp =>
    db.updateJob jobId (·.updatePreview sequence (·.finish workerId attempt (some errorCode) timestamp))
  | .reservePreview jobId run => db.reservePreview limits jobId run
  | .publishPreview jobId run page timestamp => db.updateJob jobId (·.publishPreview run page timestamp)
  | .reserveTree row jobId generation => db.reserveTree limits row jobId generation
  | .publishTree treeId => db.setTreeStatus treeId [.building] .ready
  | .invalidateTree treeId => db.setTreeStatus treeId [.building, .ready, .invalid] .invalid
  | .collectTree treeId => db.setTreeStatus treeId [.building, .ready, .invalid, .deleting] .deleting
  | .deleteTree treeId => some (db.deleteTree treeId)
  | .forgetJob jobId => some (db.forgetJob jobId)
  | .setMaintenanceMode mode => some { db with maintenanceMode := mode }

/-- The database from empty tables on, under any sequence of committed transactions. -/
def databaseMachine (limits : Limits) : LabeledMachine Database DatabaseAction :=
  ofPartial (fun db => db.jobs = [] ∧ db.sources = [] ∧ db.trees = []) (DatabaseAction.run limits)

end LatexRenderer
