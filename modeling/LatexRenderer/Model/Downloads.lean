import LatexRenderer.Model.Database

/-! # Download leases, their heartbeats and the cleanup script

A download holds a lease on its job. Its process renews the lease on a timer: it reads the clock and runs
the statement some time later. The cleanup script is another process, which reads the clock once, at its
start, and uses that instant in all its statements. `clock` is the time at which a statement runs, so a
reading is never ahead of it; between two steps any time may pass and any transaction commit.
-/

namespace LatexRenderer

open Machine

def artifactDownloadLeaseMs : Duration := 300000

/-- A row of `artifact_download_leases`. -/
structure DownloadLeaseRow where
  id : String
  jobId : String
  artifactId : String
  expiresAt : Timestamp
  createdAt : Timestamp

def DownloadLeaseRow.renewLease (timestamp expiresAt : Timestamp) (row : DownloadLeaseRow) :
    Option DownloadLeaseRow :=
  if row.expiresAt > timestamp then some { row with expiresAt := expiresAt } else none

/-- `relative_path LIKE 'svg/%'`, which ignores the case of letters. -/
def ArtifactRow.isSvgPath (row : ArtifactRow) : Bool :=
  (row.relativePath.toList.take 4).map Char.toLower == ['s', 'v', 'g', '/']

/-- `ARTIFACT_AVAILABLE_SQL`: a finished job, or one whose PDF stage has succeeded, within its retention;
of the SVG pages only those of the stage's generation. -/
def Job.available (cutoff : Timestamp) (artifact : ArtifactRow) (job : Job) : Bool :=
  let published := job.stages.any (·.pdfStatus == .succeeded)
  (decide (job.row.status ∈ [.succeeded, .failed, .timeout, .canceled, .rejected]) ||
      (decide (job.row.status ∈ [.queued, .validating, .running]) && published)) &&
    decide (job.retentionStart > cutoff) &&
    (!artifact.isSvgPath || job.stages.all fun stage =>
      artifact.storageGeneration.isSome && artifact.storageGeneration == stage.svgGeneration)

def Job.getDownloadable (cutoff : Timestamp) (relativePath : String) (job : Job) : Option ArtifactRow :=
  job.artifacts.find? fun artifact => artifact.relativePath == relativePath && job.available cutoff artifact

/-- What `protectArtifactDownloadLeases` knows of one lease: the clock reading of a heartbeat whose
statement has not run yet, and whether it has released the lease. -/
structure LeaseHolder where
  leaseId : String
  reading : Option Timestamp := none
  released : Bool := false

/-- A run of the cleanup script: its one clock reading, whether it has deleted the expired leases, and
the job it has claimed and not yet finished. -/
structure CleanupRun where
  now : Timestamp
  swept : Bool := false
  job : Option String := none

/-- The tables, the processes that hold leases, the clock and the cleanup script. -/
structure DownloadSystem where
  db : Database := {}
  leases : List DownloadLeaseRow := []
  holders : List LeaseHolder := []
  clock : Timestamp := 0
  cleanup : Option CleanupRun := none

/-- The three statements of the cleanup script on a job. -/
def DatabaseAction.cleansJob : DatabaseAction → Bool
  | .job _ (.claimDeletion _) | .job _ (.finishDeletion _) | .job _ (.failDeletion ..) => true
  | _ => false

namespace DownloadSystem

/-- The ids of the jobs that a lease or the cleanup script names. -/
def knowsJob (jobId : String) (system : DownloadSystem) : Bool :=
  system.leases.any (·.jobId == jobId) || system.cleanup.any (·.job == some jobId)

/-- `EXISTS(… artifact_download_leases … expires_at>?)`, `hasActiveTransfers`. -/
def hasActiveTransfers (jobId : String) (timestamp : Timestamp) (system : DownloadSystem) : Bool :=
  system.leases.any fun lease => lease.jobId == jobId && decide (lease.expiresAt > timestamp)

/-- A transaction of any other program. `newId` never gives the id of a known job. -/
def transact (limits : Limits) (action : DatabaseAction) (system : DownloadSystem) :
    Option DownloadSystem :=
  if action.cleansJob || action.newJobId?.any system.knowsJob then none
  else (action.run limits system.db).map fun db => { system with db := db }

/-- The transaction that starts a download: the artifact must be downloadable, and the lease is created
with it. The clock is read within the transaction, whose lock keeps other writers out. -/
def openDownload (leaseId jobId relativePath : String) (cutoff : Timestamp) (system : DownloadSystem) :
    Option DownloadSystem := do
  guard (system.holders.all (·.leaseId != leaseId))
  let record ← system.db.jobs.find? (·.job.row.id == jobId)
  let artifact ← record.job.getDownloadable cutoff relativePath
  return { system with
    leases := system.leases ++ [{
      id := leaseId
      jobId := jobId
      artifactId := artifact.id
      expiresAt := system.clock + artifactDownloadLeaseMs
      createdAt := system.clock }]
    holders := system.holders ++ [{ leaseId := leaseId }] }

/-- A statement on what one process knows of its lease. -/
def updateHolder (leaseId : String) (change : LeaseHolder → Option LeaseHolder)
    (system : DownloadSystem) : Option DownloadSystem :=
  (update? (·.leaseId == leaseId) change system.holders).map fun holders =>
    { system with holders := holders }

/-- The timer fires and reads the clock. -/
def heartbeat (leaseId : String) (system : DownloadSystem) : Option DownloadSystem :=
  system.updateHolder leaseId fun holder =>
    if holder.released = false ∧ holder.reading = none then
      some { holder with reading := some system.clock }
    else none

/-- The statement of the heartbeat runs with its reading. A renewal that changes no row has lost the
lease: the stream is destroyed and the lease released. -/
def renew (leaseId : String) (system : DownloadSystem) : Option DownloadSystem := do
  let holder ← system.holders.find? (·.leaseId == leaseId)
  let timestamp ← holder.reading
  match update? (·.id == leaseId) (·.renewLease timestamp (timestamp + artifactDownloadLeaseMs))
      system.leases with
  | some leases =>
    updateHolder leaseId (fun holder => some { holder with reading := none })
      { system with leases := leases }
  | none => system.updateHolder leaseId fun holder => some { holder with reading := none, released := true }

/-- The stream ends, or fails. -/
def release (leaseId : String) (system : DownloadSystem) : Option DownloadSystem :=
  system.updateHolder leaseId fun holder => some { holder with reading := none, released := true }

/-- `deleteLease`, after the release. -/
def deleteLease (leaseId : String) (system : DownloadSystem) : Option DownloadSystem :=
  if system.holders.any fun holder => holder.leaseId == leaseId && holder.released then
    some { system with leases := system.leases.filter (·.id != leaseId) }
  else none

/-- The script starts. -/
def startCleanup (system : DownloadSystem) : Option DownloadSystem :=
  if system.cleanup.isNone then some { system with cleanup := some { now := system.clock } } else none

/-- `DELETE FROM artifact_download_leases WHERE expires_at<=?`. -/
def sweepLeases (system : DownloadSystem) : Option DownloadSystem := do
  let run ← system.cleanup
  guard (run.swept = false)
  return { system with
    leases := system.leases.filter fun lease => decide (lease.expiresAt > run.now)
    cleanup := some { run with swept := true } }

/-- The statement of the cleanup script on one job. -/
def cleanJob (limits : Limits) (jobId : String) (claimed : Option String) (action : JobAction)
    (run : CleanupRun) (system : DownloadSystem) : Option DownloadSystem :=
  (system.db.updateJob jobId (·.act limits.maxOutputBytes action)).map fun db =>
    { system with db := db, cleanup := some { run with job := claimed } }

/-- The claim of a job. -/
def claimJob (limits : Limits) (jobId : String) (cutoff : Timestamp) (system : DownloadSystem) :
    Option DownloadSystem := do
  let run ← system.cleanup
  guard (run.swept = true ∧ run.job = none)
  let record ← system.db.jobs.find? (·.job.row.id == jobId)
  system.cleanJob limits jobId (some jobId) (.claimDeletion {
    now := run.now
    cutoff := cutoff
    downloadActive := system.hasActiveTransfers jobId run.now
    previewRunning := record.previews.any (·.status == .running) }) run

/-- The removal of the files of the claimed job. -/
def removeFiles (jobId : String) (system : DownloadSystem) : Option DownloadSystem :=
  if system.cleanup.any (·.job == some jobId) then some system else none

/-- The transaction after the files are gone. -/
def finishJob (limits : Limits) (system : DownloadSystem) : Option DownloadSystem := do
  let run ← system.cleanup
  let jobId ← run.job
  system.cleanJob limits jobId none (.finishDeletion run.now) run

/-- The record of a failed removal. -/
def failJob (limits : Limits) (error : String) (system : DownloadSystem) : Option DownloadSystem := do
  let run ← system.cleanup
  let jobId ← run.job
  system.cleanJob limits jobId none (.failDeletion run.now error) run

/-- The script ends, or is killed. -/
def stopCleanup (system : DownloadSystem) : Option DownloadSystem :=
  if system.cleanup.isSome then some { system with cleanup := none } else none

end DownloadSystem

/-- One step of any of the processes, or of the clock. -/
inductive DownloadAction where
  | tick (passed : Duration)
  | transact (action : DatabaseAction)
  | openDownload (leaseId jobId relativePath : String) (cutoff : Timestamp)
  | heartbeat (leaseId : String)
  | renew (leaseId : String)
  | release (leaseId : String)
  | deleteLease (leaseId : String)
  | startCleanup
  | sweepLeases
  | claimJob (jobId : String) (cutoff : Timestamp)
  | removeFiles (jobId : String)
  | finishJob
  | failJob (error : String)
  | stopCleanup

/-- The effect of a step; `none` is one that throws or is not possible. -/
def DownloadAction.run (limits : Limits) (system : DownloadSystem) :
    DownloadAction → Option DownloadSystem
  | .tick passed => some { system with clock := system.clock + passed }
  | .transact action => system.transact limits action
  | .openDownload leaseId jobId relativePath cutoff =>
    system.openDownload leaseId jobId relativePath cutoff
  | .heartbeat leaseId => system.heartbeat leaseId
  | .renew leaseId => system.renew leaseId
  | .release leaseId => system.release leaseId
  | .deleteLease leaseId => system.deleteLease leaseId
  | .startCleanup => system.startCleanup
  | .sweepLeases => system.sweepLeases
  | .claimJob jobId cutoff => system.claimJob limits jobId cutoff
  | .removeFiles jobId => system.removeFiles jobId
  | .finishJob => system.finishJob limits
  | .failJob error => system.failJob limits error
  | .stopCleanup => system.stopCleanup

/-- The system from empty tables on. -/
def downloadMachine (limits : Limits) : LabeledMachine DownloadSystem DownloadAction :=
  ofPartial (fun system => system.db.jobs = [] ∧ system.db.sources = [] ∧ system.db.trees = [] ∧
    system.leases = [] ∧ system.holders = [] ∧ system.cleanup = none) (DownloadAction.run limits)

end LatexRenderer
