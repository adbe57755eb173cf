import LatexRenderer.Lifecycle.Refinement

/-! # The identity of a job

No action changes who a job belongs to, what it renders or which outputs it was asked for.
-/

namespace LatexRenderer

/-- The columns that are set when the row is inserted and never again. -/
structure JobIdentity where
  id : String
  userId : String
  serviceAccountId : String
  apiKeyId : String
  rendererVersion : String
  sourceSize : Nat
  sourceSha256 : Sha256
  createdAt : Timestamp
  retryOfJobId : Option String
  sourceId : Option String
  entrypoint : String
  outputs : List RenderOutput

def JobRow.identity (row : JobRow) : JobIdentity where
  id := row.id
  userId := row.userId
  serviceAccountId := row.serviceAccountId
  apiKeyId := row.apiKeyId
  rendererVersion := row.rendererVersion
  sourceSize := row.sourceSize
  sourceSha256 := row.sourceSha256
  createdAt := row.createdAt
  retryOfJobId := row.retryOfJobId
  sourceId := row.sourceId
  entrypoint := row.entrypoint
  outputs := row.outputs

variable {maxOutputBytes : Nat} {fence : Fence} {job next : Job} {now : Timestamp}

private theorem guarded_identity {p : Prop} [Decidable p] {row after changed : JobRow}
    (updated : (if p then some changed else none) = some after)
    (same : changed.identity = row.identity) : after.identity = row.identity := by
  obtain ⟨_, eq⟩ := (Option.ite_none_right_eq_some ..).mp updated
  rwa [← Option.some.inj eq]

theorem JobRow.transitionOwned_identity {row after : JobRow} {source : List JobStatus}
    {target : JobStatus} {updates : WorkerUpdates}
    (updated : row.transitionOwned fence source target now updates = some after) :
    after.identity = row.identity :=
  guarded_identity updated rfl

theorem JobRow.markCanceled_identity {row after : JobRow} {bytes : Option Nat}
    (updated : row.markCanceled fence now bytes = some after) : after.identity = row.identity :=
  guarded_identity updated rfl

theorem JobRow.finishFailure_identity {row after : JobRow} {status : FailureStatus}
    {code message : String} {bytes : Nat}
    (updated : row.finishFailure fence status code message now bytes = some after) :
    after.identity = row.identity :=
  guarded_identity updated rfl

/-- A worker's operation keeps the identity of the job. -/
theorem WorkerOperation.run_identity {operation : WorkerOperation}
    (ran : operation.run maxOutputBytes fence job = some next) :
    next.row.identity = job.row.identity := by
  cases operation with
  | heartbeat | expireRecoveryClaim => exact guarded_identity (Job.updateColumns_row ran) rfl
  | rejectInactive | startRunning => exact JobRow.transitionOwned_identity (Job.updateStatus_row ran)
  | prepareStages rendererImage => rw [(Job.prepareStages_frame ran).2.1]
  | startPdf =>
    obtain ⟨_, _, _, _, rfl⟩ := Job.updateStage_eq_some (fun row stage => stage.startPdf fence row) ran
    rfl
  | startSvg =>
    obtain ⟨_, _, _, _, rfl⟩ := Job.updateStage_eq_some (fun row stage => stage.startSvg fence row) ran
    rfl
  | markCanceled => exact JobRow.markCanceled_identity (Job.updateStatus_row ran)
  | finalize run artifacts now =>
    obtain ⟨_, _, _, _, ⟨_, canceled⟩ | ⟨_, inserted, inserting, ended⟩⟩ := Job.finalize_cases ran
    · exact JobRow.markCanceled_identity (Job.updateStatus_row canceled)
    · rw [← (Job.insertArtifacts_frame inserting).1]
      exact JobRow.transitionOwned_identity (Job.updateStatus_row ended)
  | commitPdfFailure run artifacts now =>
    obtain ⟨_, _, _, _, ⟨_, canceled⟩ | ⟨_, _, inserted, _, publishing, ended⟩⟩ :=
      Job.commitPdfFailure_cases ran
    · exact JobRow.markCanceled_identity (Job.updateStatus_row canceled)
    · rw [← (Job.publishArtifacts_frame publishing).1]
      exact JobRow.transitionOwned_identity (Job.updateStatus_row ended)
  | commitPdf pdfSha256 synctex artifacts now =>
    obtain ⟨_, _, _, completed, inserted, _, completing, publishing, kept⟩ := Job.commitPdf_cases ran
    obtain ⟨_, _, _, _, rfl⟩ := Job.updateStage_eq_some _ completing
    have same := JobRow.transitionOwned_identity (Job.updateStatus_row kept)
    rwa [(Job.publishArtifacts_frame publishing).1] at same
  | commitSvg run artifacts previousBytes now =>
    obtain ⟨_, _, _, completed, inserted, _, completing, publishing, ended⟩ := Job.commitSvg_cases ran
    obtain ⟨_, _, _, _, rfl⟩ := Job.updateStage_eq_some _ completing
    have same := JobRow.transitionOwned_identity (Job.updateStatus_row ended)
    rwa [(Job.publishArtifacts_frame publishing).1] at same
  | recordPublishedFailure status code message now =>
    simp only [WorkerOperation.run, Job.recordPublishedFailure] at ran
    split at ran
    · exact JobRow.markCanceled_identity (Job.updateStatus_row ran)
    · exact JobRow.finishFailure_identity (Job.updateStatus_row ran)
  | recordUnpublishedFailure status code message artifacts now =>
    obtain ⟨_, _, finished, ended, inserting⟩ := Job.recordUnpublishedFailure_cases ran
    rw [(Job.insertArtifacts_frame inserting).1]
    exact JobRow.finishFailure_identity (Job.updateStatus_row ended)
  | recoverFailed | recoverQueued => exact guarded_identity (Job.updateStatus_row ran) rfl

theorem JobAction.run_identity {action : JobAction} (ran : action.run maxOutputBytes job = some next) :
    next.row.identity = job.row.identity := by
  cases action with
  | uploadStarted | uploadFinished | uploadFailed | expireReservation | cancel | claimDeletion
  | failDeletion => exact guarded_identity (Job.updateStatus_row ran) rfl
  | markDeleting now =>
    obtain ⟨_, _, same⟩ := Option.map_eq_some_iff.mp (Job.updateStatus_row ran)
    rw [← same]
    rfl
  | requeueSvg input =>
    obtain ⟨_, _, _, _, _, rfl⟩ := Job.requeueSvg_cases ran
    rfl
  | attachProjectRevision | blockAdmission | clearAdmission | claimExpiredLease =>
    exact guarded_identity (Job.updateColumns_row ran) rfl
  | claimNext workerId now expires queuedBefore previewRunning =>
    have updated := Job.updateStatus_row ran
    simp only [JobRow.claimNext, Option.ite_none_left_eq_some] at updated
    exact guarded_identity updated.2 rfl
  | worker fence operation => exact WorkerOperation.run_identity ran
  | finishDeletion now =>
    obtain ⟨_, updated, rfl⟩ := Option.map_eq_some_iff.mp ran
    exact guarded_identity (Job.updateStatus_row updated) rfl

end LatexRenderer
