import LatexRenderer.Model.Rows

/-! # `WorkerRepository`

Every statement a worker or a recovery run makes on a job row it has claimed carries its owner name
and the lease generation it claimed, and changes nothing when either no longer matches.
-/

namespace LatexRenderer

/-- What a claim hands to its holder and what every later statement of the holder carries. -/
structure Fence where
  owner : String
  generation : Nat
deriving DecidableEq, Repr

/-- The statuses `finishFailure` may be asked to record. -/
inductive FailureStatus where
  | rejected | failed
deriving DecidableEq, Repr

def FailureStatus.terminal : FailureStatus → TerminalStatus
  | .rejected => .rejected
  | .failed => .failed

/-- The columns `transitionOwned` may set besides `status` and `updated_at`; an absent one keeps its
value. `releaseLease` is `lease_owner: null, lease_expires_at: null`. -/
structure WorkerUpdates where
  startedAt : Option Timestamp := none
  completedAt : Option Timestamp := none
  outputSize : Option Nat := none
  exitCode : Option Nat := none
  errorCode : Option (Option String) := none
  errorMessage : Option (Option String) := none
  heartbeatAt : Option Timestamp := none
  renderStatus : Option TerminalStatus := none
  releaseLease : Bool := false

/-- A row that `staleLeases` returned: a lease was held in one of the leased statuses. -/
structure StaleLeaseRow where
  status : JobStatus
  leaseOwner : String
  leaseExpiresAt : Timestamp
  leaseGeneration : Nat
  leased : status ∈ JobStatus.leased

/-- The name a recovery run takes for the lease it claims. -/
def recoveryOwner (workerId : String) (generation : Nat) : String :=
  workerId ++ ":recovery:" ++ toString generation

namespace JobRow

/-- `lease_owner=? AND lease_generation=?`. -/
def ownedBy (fence : Fence) (row : JobRow) : Prop :=
  row.leaseOwner = some fence.owner ∧ row.leaseGeneration = fence.generation

instance (fence : Fence) (row : JobRow) : Decidable (row.ownedBy fence) := by
  unfold ownedBy
  infer_instance

/-- `claimNext`, once this row is the oldest queued one: the claim's guard and its update. A running
preview request anywhere keeps the worker from claiming. -/
def claimNext (workerId : String) (now leaseExpiresAt : Timestamp) (queuedBefore : Option Timestamp)
    (previewRunning : Bool) (row : JobRow) : Option JobRow :=
  if previewRunning then none
  else if row.status = .queued ∧ ∀ limit ∈ queuedBefore, ∃ queued ∈ row.queuedAt, queued ≤ limit then
    some { row with
      status := .validating
      leaseOwner := some workerId
      leaseExpiresAt := some leaseExpiresAt
      heartbeatAt := some now
      updatedAt := now
      leaseGeneration := row.leaseGeneration + 1
      errorCode := none
      errorMessage := none }
  else none

def heartbeat (fence : Fence) (now leaseExpiresAt : Timestamp) (row : JobRow) : Option JobRow :=
  if row.ownedBy fence ∧ row.status ∈ [.validating, .running] then
    some { row with heartbeatAt := some now, leaseExpiresAt := some leaseExpiresAt }
  else none

def markCanceled (fence : Fence) (now : Timestamp) (publishedBytes : Option Nat) (row : JobRow) :
    Option JobRow :=
  if row.ownedBy fence ∧ row.status ∈ JobStatus.leased then
    some { row with
      status := .canceled
      renderStatus := some .canceled
      completedAt := some now
      updatedAt := now
      outputSize := publishedBytes <|> row.outputSize
      leaseOwner := none
      leaseExpiresAt := none }
  else none

def finishFailure (fence : Fence) (status : FailureStatus) (errorCode message : String)
    (now : Timestamp) (outputSize : Nat) (row : JobRow) : Option JobRow :=
  if row.ownedBy fence ∧ row.status ∈ [.validating, .running] then
    some { row with
      status := status.terminal.toJob
      renderStatus := some status.terminal
      errorCode := some errorCode
      errorMessage := some message
      completedAt := some now
      updatedAt := now
      outputSize := some outputSize
      leaseOwner := none
      leaseExpiresAt := none }
  else none

def transitionOwned (fence : Fence) (source : List JobStatus) (target : JobStatus) (now : Timestamp)
    (updates : WorkerUpdates) (row : JobRow) : Option JobRow :=
  if row.ownedBy fence ∧ row.status ∈ source then
    some { row with
      status := target
      updatedAt := now
      startedAt := updates.startedAt <|> row.startedAt
      completedAt := updates.completedAt <|> row.completedAt
      outputSize := updates.outputSize <|> row.outputSize
      exitCode := updates.exitCode <|> row.exitCode
      errorCode := updates.errorCode.getD row.errorCode
      errorMessage := updates.errorMessage.getD row.errorMessage
      heartbeatAt := updates.heartbeatAt <|> row.heartbeatAt
      renderStatus := updates.renderStatus <|> row.renderStatus
      leaseOwner := if updates.releaseLease then none else row.leaseOwner
      leaseExpiresAt := if updates.releaseLease then none else row.leaseExpiresAt }
  else none

/-- `staleLeases(now)`, for one row. -/
def staleLease? (now : Timestamp) (row : JobRow) : Option StaleLeaseRow :=
  match row.leaseOwner, row.leaseExpiresAt with
  | some owner, some expires =>
    if leased : row.status ∈ JobStatus.leased then
      if expires < now then some ⟨row.status, owner, expires, row.leaseGeneration, leased⟩ else none
    else none
  | _, _ => none

/-- `claimExpiredLease`: the row must still be as `staleLeases` saw it. -/
def claimExpiredLease (job : StaleLeaseRow) (recoveryOwner : String) (now leaseExpiresAt : Timestamp)
    (row : JobRow) : Option JobRow :=
  if row.status = job.status ∧ row.leaseOwner = some job.leaseOwner ∧
      row.leaseExpiresAt = some job.leaseExpiresAt ∧ row.leaseGeneration = job.leaseGeneration ∧
      job.leaseExpiresAt ≤ now then
    some { row with
      leaseOwner := some recoveryOwner
      leaseExpiresAt := some leaseExpiresAt
      heartbeatAt := some now
      updatedAt := now
      leaseGeneration := row.leaseGeneration + 1 }
  else none

def expireRecoveryClaim (fence : Fence) (now : Timestamp) (row : JobRow) : Option JobRow :=
  if row.ownedBy fence ∧ row.status ∈ JobStatus.leased then
    some { row with leaseExpiresAt := some now, updatedAt := now }
  else none

def recoverFailed (fence : Fence) (now : Timestamp) (row : JobRow) : Option JobRow :=
  if row.ownedBy fence ∧ row.status ∈ [.validating, .running] then
    some { row with
      status := .failed
      renderStatus := some .failed
      errorCode := some "WORKER_CRASHED"
      errorMessage := some "Worker lease expired while container existed"
      completedAt := some now
      updatedAt := now
      leaseOwner := none
      leaseExpiresAt := none }
  else none

def recoverQueued (fence : Fence) (now : Timestamp) (row : JobRow) : Option JobRow :=
  if row.ownedBy fence ∧ row.status ∈ [.validating, .running] then
    some { row with
      status := .queued
      updatedAt := now
      leaseOwner := none
      leaseExpiresAt := none }
  else none

/-- `setAdmissionReason(true, …)`: a queued job waits for host resources. -/
def blockAdmission (message : String) (timestamp : Timestamp) (row : JobRow) : Option JobRow :=
  if row.status = .queued ∧ (row.errorCode = none ∨ row.errorCode = some "HOST_RESOURCE_WAIT") ∧
      row.errorMessage ≠ some message then
    some { row with
      errorCode := some "HOST_RESOURCE_WAIT"
      errorMessage := some message
      updatedAt := timestamp }
  else none

/-- `setAdmissionReason(false, …)`. -/
def clearAdmission (timestamp : Timestamp) (row : JobRow) : Option JobRow :=
  if row.status = .queued ∧ row.errorCode = some "HOST_RESOURCE_WAIT" then
    some { row with errorCode := none, errorMessage := none, updatedAt := timestamp }
  else none

/-- The part of `workerHasDemand` that looks at the `jobs` table, for one row. -/
def hasDemand (row : JobRow) : Prop :=
  row.status ∈ [.queued, .validating, .running] ∨ row.leaseOwner ≠ none

end JobRow

end LatexRenderer
