import LatexRenderer.Model.Previews
import LatexRenderer.Model.Sources.SourcesRepository

/-! # The database, storage usage and the admission checks

Every transaction that creates a job or a source, or makes a job active again, first asks whether the
queue, the service account, the user and the user's storage have room for it.
-/

namespace LatexRenderer

open Machine

structure AppError where
  code : String
  message : String
  status : Nat
deriving DecidableEq, Repr

inductive MaintenanceMode where
  | normal | rejectNewJobs | readOnly | lockdown
deriving DecidableEq, Repr

/-- The settings that bound admission, and the output limit that the programs share. -/
structure Limits where
  maxQueueLength : Nat
  maxUserActiveJobs : Nat
  maxUserStorageBytes : Nat
  maxOutputBytes : Nat
  maxSourceTrees : Nat := 64
  globalTreeBytes : Nat
  userTreeBytes : Nat

/-- The fixed bound on the active jobs of a service account. -/
def maxAccountActiveJobs : Nat := 5

inductive SourceTreeStatus where
  | building | ready | invalid | deleting
deriving DecidableEq, Repr

/-- A row of `source_trees`. -/
structure SourceTreeRow where
  id : String
  identity : String
  sourceId : String
  ownerUserId : String
  status : SourceTreeStatus
  reservedBytes : Nat
  createdAt : Timestamp
  expiresAt : Timestamp

/-- The tables that admission reads and writes. -/
structure Database where
  jobs : List JobRecord := []
  sources : List SourceRow := []
  trees : List SourceTreeRow := []
  maintenanceMode : MaintenanceMode := .normal

/-- The output that a job counts for: an active job counts for its reservation at least. -/
def JobRow.outputBytes (row : JobRow) : Nat :=
  if row.status ∈ JobStatus.active then max (row.outputSize.getD 0) row.reservedOutputBytes
  else row.outputSize.getD 0

/-- The source of a job without a row in `sources`. -/
def JobRow.sourceBytes (row : JobRow) : Nat :=
  if row.sourceId.isNone then row.sourceSize else 0

/-- The summand of a job in `storageUsageForUser`. -/
def JobRow.storageBytes (row : JobRow) : Nat :=
  row.outputBytes + row.sourceBytes

/-- The bytes that the running preview requests of a job have reserved. -/
def JobRecord.previewBytes (record : JobRecord) : Nat :=
  total (·.reservedBytes) (record.previews.filter (·.status == .running))

namespace Database

def countActive (db : Database) : Nat :=
  db.jobs.countP fun record => decide (record.job.row.status ∈ JobStatus.active)

def countActiveForServiceAccount (serviceAccountId : String) (db : Database) : Nat :=
  db.jobs.countP fun record => record.job.row.serviceAccountId == serviceAccountId &&
    decide (record.job.row.status ∈ JobStatus.active)

def countActiveForUser (userId : String) (db : Database) : Nat :=
  db.jobs.countP fun record => record.job.row.userId == userId &&
    decide (record.job.row.status ∈ JobStatus.active)

/-- `storageUsageForUser`: sources, jobs, running previews and cached source trees. -/
def storageUsageForUser (userId : String) (db : Database) : Nat :=
  total (·.size) (db.sources.filter fun row => row.ownerUserId == userId && row.status != .deleted) +
  total (·.job.row.storageBytes)
    (db.jobs.filter fun record => record.job.row.userId == userId && record.job.row.status != .deleted) +
  total (·.previewBytes) (db.jobs.filter fun record => record.job.row.userId == userId) +
  total (·.reservedBytes) (db.trees.filter fun row => row.ownerUserId == userId)

end Database

/-- The messages in which the admission checks of the services differ. -/
structure AdmissionTexts where
  maintenance : String
  accountQueue : String
  userQueue : String

/-- The texts of the internal and the admin API. -/
def ticketTexts : AdmissionTexts where
  maintenance := "New jobs are temporarily unavailable"
  accountQueue := "Service account pending job limit reached"
  userQueue := "User pending job limit reached"

/-- The texts of the remote MCP server. -/
def remoteTexts : AdmissionTexts :=
  { ticketTexts with accountQueue := "Remote MCP pending job limit reached" }

/-- The texts of the SVG retry. -/
def svgRetryTexts : AdmissionTexts where
  maintenance := "New rendering is temporarily unavailable"
  accountQueue := "Service account pending Job limit reached"
  userQueue := "User pending Job limit reached"

/-- `assertStorage`, `assertStorageQuota`: the user's storage has room for some more bytes. -/
def assertStorage (limits : Limits) (db : Database) (userId : String) (bytes : Nat) :
    Except AppError Unit :=
  if db.storageUsageForUser userId + bytes > limits.maxUserStorageBytes then
    throw ⟨"USER_STORAGE_QUOTA", "User storage quota is exhausted", 429⟩
  else return ()

/-- `assertAccepting`, `assertQueue` and the checks of the SVG retry: one more active job of this user
and service account, and these bytes, are within every limit. -/
def assertAccepting (texts : AdmissionTexts) (limits : Limits) (db : Database)
    (userId serviceAccountId : String) (bytes : Nat) : Except AppError Unit :=
  if db.maintenanceMode ≠ .normal then throw ⟨"MAINTENANCE", texts.maintenance, 503⟩
  else if db.countActive ≥ limits.maxQueueLength then throw ⟨"QUEUE_FULL", "Render queue is full", 503⟩
  else if db.countActiveForServiceAccount serviceAccountId ≥ maxAccountActiveJobs then
    throw ⟨"ACCOUNT_QUEUE_LIMIT", texts.accountQueue, 429⟩
  else if db.countActiveForUser userId ≥ limits.maxUserActiveJobs then
    throw ⟨"USER_QUEUE_LIMIT", texts.userQueue, 429⟩
  else assertStorage limits db userId bytes

def assertSourceWritable (db : Database) : Except AppError Unit :=
  if db.maintenanceMode ≠ .normal ∧ db.maintenanceMode ≠ .rejectNewJobs then
    throw ⟨"MAINTENANCE", "Source writes are temporarily unavailable", 503⟩
  else return ()

end LatexRenderer
