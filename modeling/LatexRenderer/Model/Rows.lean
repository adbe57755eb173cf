import Mathlib.Algebra.BigOperators.Group.List.Basic
import Mathlib.Algebra.Order.Ring.Nat
import Mathlib.Data.List.Basic

/-! # Rows of the job, source, stage and artifact tables

Each row type follows the columns of its table. A `TEXT` column with a `CHECK (… IN …)` is an
inductive type, a nullable column an `Option`, an instant a number of milliseconds (all instants are
written by `toISOString`, whose fixed width makes the text order the time order), and a SHA-256 the
256-bit digest whose lower-case hexadecimal text the column stores.
-/

namespace LatexRenderer

/-- An instant, in milliseconds. -/
abbrev Timestamp := Nat

/-- `nowIso() + n` seconds and the like are written in milliseconds. -/
abbrev Duration := Nat

/-- A SHA-256 digest. -/
abbrev Sha256 := BitVec 256

/-- The hexadecimal digits of a digest, as `hash.digest("hex")` writes them. -/
def Sha256.hex (digest : Sha256) : List Char :=
  List.ofFn fun place : Fin 64 => Nat.digitChar (digest.toNat / 16 ^ (63 - place.val) % 16)

@[simp] theorem Sha256.hex_length (digest : Sha256) : digest.hex.length = 64 := by
  simp [Sha256.hex]

inductive JobStatus where
  | reserved | uploading | queued | validating | running
  | succeeded | failed | timeout | canceled | rejected
  | deleting | deleted | expired
deriving DecidableEq, Repr

/-- The values the `CHECK` of `jobs.render_status` admits. -/
inductive TerminalStatus where
  | succeeded | failed | timeout | canceled | rejected | expired
deriving DecidableEq, Repr

/-- The job status of the same name. -/
def TerminalStatus.toJob : TerminalStatus → JobStatus
  | .succeeded => .succeeded
  | .failed => .failed
  | .timeout => .timeout
  | .canceled => .canceled
  | .rejected => .rejected
  | .expired => .expired

/-- `status IN (TERMINAL)`, with the terminal status found. -/
def JobStatus.terminal? : JobStatus → Option TerminalStatus
  | .succeeded => some .succeeded
  | .failed => some .failed
  | .timeout => some .timeout
  | .canceled => some .canceled
  | .rejected => some .rejected
  | .expired => some .expired
  | _ => none

/-- `ACTIVE`: the statuses of a job that still has work before it. -/
def JobStatus.active : List JobStatus :=
  [.reserved, .uploading, .queued, .validating, .running]

/-- The statuses a lease may be held in. -/
def JobStatus.leased : List JobStatus :=
  [.validating, .running, .canceled]

@[simp] theorem TerminalStatus.terminal?_toJob (status : TerminalStatus) :
    status.toJob.terminal? = some status := by
  cases status <;> rfl

theorem JobStatus.terminal?_eq_some {status : JobStatus} {terminal : TerminalStatus} :
    status.terminal? = some terminal ↔ status = terminal.toJob := by
  cases status <;> cases terminal <;> simp [JobStatus.terminal?, TerminalStatus.toJob]

@[simp] theorem JobStatus.mem_active {status : JobStatus} :
    status ∈ JobStatus.active ↔ status = .reserved ∨ status = .uploading ∨ status = .queued ∨
      status = .validating ∨ status = .running := by
  simp [JobStatus.active]

@[simp] theorem JobStatus.mem_leased {status : JobStatus} :
    status ∈ JobStatus.leased ↔ status = .validating ∨ status = .running ∨ status = .canceled := by
  simp [JobStatus.leased]

/-- A terminal status is not an active one. -/
theorem TerminalStatus.toJob_not_active (status : TerminalStatus) :
    status.toJob ∉ JobStatus.active := by
  cases status <;> decide

/-- `jobs.deletion_status` and `sources.deletion_status`. -/
inductive DeletionStatus where
  | retained | pending | deleting | retry | failed | deleted
deriving DecidableEq, Repr

/-- The outputs a job is asked for; `outputs_json` stores the list. -/
inductive RenderOutput where
  | pdf | svg
deriving DecidableEq, Repr

/-- A row of `jobs`. -/
structure JobRow where
  id : String
  userId : String
  serviceAccountId : String
  apiKeyId : String
  status : JobStatus
  rendererVersion : String
  sourceSize : Nat
  sourceSha256 : Sha256
  createdAt : Timestamp
  updatedAt : Timestamp
  queuedAt : Option Timestamp := none
  startedAt : Option Timestamp := none
  completedAt : Option Timestamp := none
  exitCode : Option Nat := none
  errorCode : Option String := none
  errorMessage : Option String := none
  outputSize : Option Nat := none
  cancelRequestedAt : Option Timestamp := none
  retryOfJobId : Option String := none
  leaseOwner : Option String := none
  leaseExpiresAt : Option Timestamp := none
  heartbeatAt : Option Timestamp := none
  leaseGeneration : Nat := 0
  deletedAt : Option Timestamp := none
  sourceId : Option String
  entrypoint : String
  projectRevisionId : Option String
  outputs : List RenderOutput
  reservedOutputBytes : Nat
  renderStatus : Option TerminalStatus := none
  deletionStatus : DeletionStatus := .retained
  deletionAttempts : Nat := 0
  deletionError : Option String := none
  deletionNextAttemptAt : Option Timestamp := none

inductive SourceStatus where
  | reserved | uploading | ready | deleting | deleted | expired
deriving DecidableEq, Repr

/-- A row of `sources`. -/
structure SourceRow where
  id : String
  ownerUserId : String
  size : Nat
  sha256 : Sha256
  status : SourceStatus
  createdAt : Timestamp
  updatedAt : Timestamp
  expiresAt : Timestamp
  uploadedAt : Option Timestamp := none
  deletedAt : Option Timestamp := none
  uploadReceivedBytes : Nat := 0
  uploadLeaseOwner : Option String := none
  uploadLeaseExpiresAt : Option Timestamp := none
  paths : List String := []
  deletionStatus : DeletionStatus := .retained
  deletionAttempts : Nat := 0
  deletionError : Option String := none
  deletionNextAttemptAt : Option Timestamp := none

/-- The values of `pdf_status` and `svg_status`; `skipped` is for the SVG stage only. -/
inductive StageStatus where
  | queued | running | succeeded | failed | timeout | canceled | skipped
deriving DecidableEq, Repr

/-- A row of `job_output_stages`. -/
structure StageRow where
  sourceSha256 : Sha256
  sourceId : Option String
  entrypoint : String
  projectRevisionId : Option String
  rendererImage : String
  pdfStatus : StageStatus := .queued
  svgStatus : StageStatus := .queued
  pdfGeneration : Option Nat := none
  svgGeneration : Option Nat := none
  pdfSha256 : Option Sha256 := none
  synctexSha256 : Option Sha256 := none
  synctexBytes : Nat := 0
  pdfCompletedAt : Option Timestamp := none
  pdfErrorCode : Option String := none
  pdfErrorMessage : Option String := none
  svgCompletedAt : Option Timestamp := none
  svgErrorCode : Option String := none
  svgErrorMessage : Option String := none
  svgAttempt : Nat := 1

inductive ArtifactType where
  | source | pdf | log | errors | dependencies | preview | svg | svgManifest
deriving DecidableEq, Repr

/-- A row of `artifacts`. -/
structure ArtifactRow where
  id : String
  type : ArtifactType
  relativePath : String
  storageGeneration : Option Nat
  size : Nat
  sha256 : Sha256
  createdAt : Timestamp
deriving DecidableEq, Repr

/-- One job with the rows that hang on it: its `job_output_stages` row, if any, and its
`artifacts` rows. -/
structure Job where
  row : JobRow
  stages : Option StageRow := none
  artifacts : List ArtifactRow := []

end LatexRenderer
