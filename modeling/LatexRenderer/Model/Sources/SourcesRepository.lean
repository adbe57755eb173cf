import LatexRenderer.Model.Jobs.OutputStages

/-! # `SourcesRepository` and the cleanup script's steps on sources

As for jobs, a guarded `UPDATE` of one row is a partial function of the row. `references` is what the
subquery `sourceReferenceCountSql` counts: the live jobs and the project revisions over the source.
-/

namespace LatexRenderer

/-- Arguments of `insertReserved`. -/
structure SourceReservation where
  id : String
  ownerUserId : String
  size : Nat
  sha256 : Sha256
  timestamp : Timestamp
  expiresAt : Timestamp

/-- Columns that the callers of `transition` set besides `status` and `updated_at`. -/
structure SourceUpdates where
  uploadedAt : Option Timestamp := none
  expiresAt : Option Timestamp := none
  paths : Option (List String) := none

namespace SourceRow

def insertReserved (input : SourceReservation) : SourceRow where
  id := input.id
  ownerUserId := input.ownerUserId
  size := input.size
  sha256 := input.sha256
  status := .reserved
  createdAt := input.timestamp
  updatedAt := input.timestamp
  expiresAt := input.expiresAt

def transition (source : List SourceStatus) (target : SourceStatus) (timestamp : Timestamp)
    (updates : SourceUpdates) (row : SourceRow) : Option SourceRow :=
  if row.status ∈ source then
    some { row with
      status := target
      updatedAt := timestamp
      uploadedAt := updates.uploadedAt <|> row.uploadedAt
      expiresAt := updates.expiresAt.getD row.expiresAt
      paths := updates.paths.getD row.paths }
  else none

def transitionBeforeExpiry (source : List SourceStatus) (target : SourceStatus) (timestamp : Timestamp)
    (updates : SourceUpdates) (row : SourceRow) : Option SourceRow :=
  if row.expiresAt > timestamp then row.transition source target timestamp updates else none

/-- The statement with which a failed upload, or the recovery of its claim, gives the source back. -/
def restoreReserved (timestamp : Timestamp) (row : SourceRow) : Option SourceRow :=
  row.transition [.uploading] .reserved timestamp {}

/-- `discardReservation`: whether the row is deleted. -/
def discardable (referenced : Bool) (row : SourceRow) : Bool :=
  (row.status == .reserved || row.status == .uploading) && !referenced

/-- `claimUploadLease`: the lease is free, has run out, or is the caller's own. -/
def claimUploadLease (ownerUserId leaseOwner : String) (timestamp leaseExpiresAt : Timestamp)
    (row : SourceRow) : Option SourceRow :=
  if row.ownerUserId = ownerUserId ∧ row.status = .uploading ∧ row.expiresAt > timestamp ∧
      (row.uploadLeaseOwner = none ∨ row.uploadLeaseExpiresAt = none ∨
        (∃ expires ∈ row.uploadLeaseExpiresAt, expires ≤ timestamp) ∨
        row.uploadLeaseOwner = some leaseOwner) then
    some { row with uploadLeaseOwner := some leaseOwner, uploadLeaseExpiresAt := some leaseExpiresAt }
  else none

def releaseUploadLease (leaseOwner : String) (row : SourceRow) : Option SourceRow :=
  if row.uploadLeaseOwner = some leaseOwner then
    some { row with uploadLeaseOwner := none, uploadLeaseExpiresAt := none }
  else none

/-- The upload is under way, the caller holds its lease, and neither has expired. -/
def uploadHeldBy (leaseOwner : String) (timestamp : Timestamp) (row : SourceRow) : Prop :=
  row.status = .uploading ∧ row.uploadLeaseOwner = some leaseOwner ∧
    (∃ expires ∈ row.uploadLeaseExpiresAt, expires > timestamp) ∧ row.expiresAt > timestamp

instance (leaseOwner : String) (timestamp : Timestamp) (row : SourceRow) :
    Decidable (row.uploadHeldBy leaseOwner timestamp) := by
  unfold uploadHeldBy
  infer_instance

def extendUploadLease (leaseOwner : String) (timestamp leaseExpiresAt : Timestamp) (row : SourceRow) :
    Option SourceRow :=
  if row.uploadHeldBy leaseOwner timestamp then
    some { row with uploadLeaseExpiresAt := some leaseExpiresAt }
  else none

def commitUploadOffset (leaseOwner : String) (expectedOffset nextOffset : Nat) (timestamp : Timestamp)
    (row : SourceRow) : Option SourceRow :=
  if row.uploadHeldBy leaseOwner timestamp ∧ row.uploadReceivedBytes = expectedOffset ∧
      nextOffset ≤ row.size then
    some { row with uploadReceivedBytes := nextOffset, updatedAt := timestamp }
  else none

def completeUpload (leaseOwner : String) (timestamp expiresAt : Timestamp) (paths : List String)
    (row : SourceRow) : Option SourceRow :=
  if row.uploadHeldBy leaseOwner timestamp ∧ row.uploadReceivedBytes = row.size then
    some { row with
      status := .ready
      updatedAt := timestamp
      uploadedAt := some timestamp
      expiresAt := expiresAt
      paths := paths
      uploadReceivedBytes := row.size
      uploadLeaseOwner := none
      uploadLeaseExpiresAt := none }
  else none

def markDeleting (references : Nat) (timestamp : Timestamp) (row : SourceRow) : Option SourceRow :=
  if row.status ∈ [.ready, .expired] ∧ references = 0 then
    some { row with
      status := .deleting
      deletionStatus := .pending
      deletionAttempts := 0
      deletionError := none
      deletionNextAttemptAt := none
      updatedAt := timestamp }
  else none

/-- The reservation expiry of the cleanup script; `claimActive` is an unexpired claim of an upload
ticket of the source or of its job. -/
def expireReservation (now : Timestamp) (claimActive : Bool) (row : SourceRow) : Option SourceRow :=
  if row.status ∈ [.reserved, .uploading] ∧ row.expiresAt < now ∧ claimActive = false then
    some { row with status := .expired, updatedAt := now }
  else none

/-- The end of retention of a source whose last job was deleted. -/
def endRetention (references : Nat) (now : Timestamp) (row : SourceRow) : Option SourceRow :=
  if row.status = .ready ∧ references = 0 then some { row with expiresAt := now, updatedAt := now }
  else none

/-- The three ways a source becomes a candidate for deletion. -/
def deletionDue (now : Timestamp) (row : SourceRow) : Prop :=
  (row.deletionStatus = .retained ∧ row.status ∈ [.ready, .expired] ∧ row.expiresAt ≤ now) ∨
  (row.status = .deleting ∧ row.deletionStatus ∈ [.retained, .pending, .deleting]) ∨
  (row.deletionStatus ∈ [.pending, .deleting, .retry] ∧ ∀ next ∈ row.deletionNextAttemptAt, next ≤ now)

instance (now : Timestamp) (row : SourceRow) : Decidable (row.deletionDue now) := by
  unfold deletionDue
  infer_instance

/-- The claim of a source for deletion. -/
def claimDeletion (references : Nat) (now : Timestamp) (row : SourceRow) : Option SourceRow :=
  if row.deletionDue now ∧ references = 0 then
    some { row with
      status := .deleting
      deletionStatus := .deleting
      deletionAttempts := row.deletionAttempts + 1
      deletionError := none
      deletionNextAttemptAt := none
      updatedAt := now }
  else none

/-- The success of a deletion. -/
def finishDeletion (references : Nat) (now : Timestamp) (row : SourceRow) : Option SourceRow :=
  if row.status = .deleting ∧ row.deletionStatus = .deleting ∧ references = 0 then
    some { row with
      status := .deleted
      deletionStatus := .deleted
      deletionError := none
      deletionNextAttemptAt := none
      deletedAt := some now
      updatedAt := now }
  else none

/-- The failure of a deletion: the source counts as expired and is tried again later. -/
def failDeletion (now : Timestamp) (error : String) (row : SourceRow) : Option SourceRow :=
  if row.status = .deleting ∧ row.deletionStatus = .deleting then
    some { row with
      status := .expired
      deletionStatus := if row.deletionAttempts < maxCleanupAttempts then .retry else .failed
      deletionError := some error
      deletionNextAttemptAt :=
        if row.deletionAttempts < maxCleanupAttempts then some (nextRetry now row.deletionAttempts)
        else none
      updatedAt := now }
  else none

end SourceRow

/-- A statement on a source row, with the values its caller supplies. -/
inductive SourceAction where
  | uploadStarted (now : Timestamp)
  | uploadFinished (now expiresAt : Timestamp) (paths : List String)
  | uploadFailed (now : Timestamp)
  | chunksStarted (now : Timestamp)
  | stored (now expiresAt : Timestamp) (paths : List String)
  | claimUploadLease (ownerUserId leaseOwner : String) (now leaseExpiresAt : Timestamp)
  | releaseUploadLease (leaseOwner : String)
  | extendUploadLease (leaseOwner : String) (now leaseExpiresAt : Timestamp)
  | commitUploadOffset (leaseOwner : String) (expectedOffset nextOffset : Nat) (now : Timestamp)
  | completeUpload (leaseOwner : String) (now expiresAt : Timestamp) (paths : List String)
  | markDeleting (references : Nat) (now : Timestamp)
  | expireReservation (now : Timestamp) (claimActive : Bool)
  | endRetention (references : Nat) (now : Timestamp)
  | claimDeletion (references : Nat) (now : Timestamp)
  | finishDeletion (references : Nat) (now : Timestamp)
  | failDeletion (now : Timestamp) (error : String)

/-- The effect of a statement on a source row; `none` changes nothing. -/
def SourceAction.run (row : SourceRow) : SourceAction → Option SourceRow
  | .uploadStarted now => row.transition [.reserved] .uploading now {}
  | .uploadFinished now expiresAt paths =>
    row.transition [.uploading] .ready now
      { uploadedAt := some now, expiresAt := some expiresAt, paths := some paths }
  | .uploadFailed now => row.restoreReserved now
  | .chunksStarted now => row.transitionBeforeExpiry [.reserved] .uploading now {}
  | .stored now expiresAt paths =>
    row.transitionBeforeExpiry [.reserved] .ready now
      { uploadedAt := some now, expiresAt := some expiresAt, paths := some paths }
  | .claimUploadLease ownerUserId leaseOwner now leaseExpiresAt =>
    row.claimUploadLease ownerUserId leaseOwner now leaseExpiresAt
  | .releaseUploadLease leaseOwner => row.releaseUploadLease leaseOwner
  | .extendUploadLease leaseOwner now leaseExpiresAt =>
    row.extendUploadLease leaseOwner now leaseExpiresAt
  | .commitUploadOffset leaseOwner expectedOffset nextOffset now =>
    row.commitUploadOffset leaseOwner expectedOffset nextOffset now
  | .completeUpload leaseOwner now expiresAt paths => row.completeUpload leaseOwner now expiresAt paths
  | .markDeleting references now => row.markDeleting references now
  | .expireReservation now claimActive => row.expireReservation now claimActive
  | .endRetention references now => row.endRetention references now
  | .claimDeletion references now => row.claimDeletion references now
  | .finishDeletion references now => row.finishDeletion references now
  | .failDeletion now error => row.failDeletion now error

end LatexRenderer
