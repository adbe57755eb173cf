import LatexRenderer.Lifecycle.Activity
import LatexRenderer.Lifecycle.Identity
import LatexRenderer.Lifecycle.Occupancy
import LatexRenderer.Model.Admission

/-! # The bytes a job counts for

A step on a job keeps its recorded output or replaces it, while the job is live, by one within the
output limit; an active job has the whole limit reserved. So no step but an SVG requeue raises the bytes
the job counts for.
-/

namespace LatexRenderer

open Machine

/-- The output columns of a job row across a step. -/
structure OutputStep (maxOutputBytes : Nat) (before after : JobRow) : Prop where
  reserved : after.reservedOutputBytes = before.reservedOutputBytes
  recorded : after.outputSize.getD 0 = before.outputSize.getD 0 ∨
    before.lifecycle.Live ∧ after.outputSize.getD 0 ≤ maxOutputBytes

variable {maxOutputBytes : Nat} {fence : Fence} {job next : Job} {row after : JobRow} {now : Timestamp}

theorem OutputStep.of_eq (reserved : after.reservedOutputBytes = row.reservedOutputBytes)
    (recorded : after.outputSize = row.outputSize) : OutputStep maxOutputBytes row after :=
  ⟨reserved, .inl (by rw [recorded])⟩

/-- The output columns are as they were. -/
def JobRow.OutputKept (before after : JobRow) : Prop :=
  after.reservedOutputBytes = before.reservedOutputBytes ∧ after.outputSize = before.outputSize

theorem JobRow.OutputKept.step (kept : row.OutputKept after) : OutputStep maxOutputBytes row after :=
  .of_eq kept.1 kept.2

/-- A guarded update that leaves the output columns alone. -/
private theorem guarded_output {p : Prop} [Decidable p] {changed : JobRow}
    (updated : (if p then some changed else none) = some after)
    (reserved : changed.reservedOutputBytes = row.reservedOutputBytes)
    (recorded : changed.outputSize = row.outputSize) : row.OutputKept after := by
  obtain ⟨_, same⟩ := (Option.ite_none_right_eq_some ..).mp updated
  rw [← Option.some.inj same]
  exact ⟨reserved, recorded⟩

theorem JobRow.transitionOwned_output {source : List JobStatus} {target : JobStatus}
    {updates : WorkerUpdates} (updated : row.transitionOwned fence source target now updates = some after)
    (live : ∀ status ∈ source, status = .validating ∨ status = .running)
    (bounded : ∀ bytes ∈ updates.outputSize, bytes ≤ maxOutputBytes) :
    OutputStep maxOutputBytes row after := by
  simp only [transitionOwned, Option.ite_none_right_eq_some, Option.some.injEq] at updated
  obtain ⟨⟨_, member⟩, rfl⟩ := updated
  refine ⟨rfl, ?_⟩
  cases recorded : updates.outputSize with
  | none => exact .inl (by simp)
  | some bytes => exact .inr ⟨live _ member, by simpa using bounded bytes recorded⟩

theorem JobRow.markCanceled_output {bytes : Option Nat}
    (updated : row.markCanceled fence now bytes = some after)
    (bounded : ∀ total ∈ bytes, row.lifecycle.Live ∧ total ≤ maxOutputBytes) :
    OutputStep maxOutputBytes row after := by
  simp only [markCanceled, Option.ite_none_right_eq_some, Option.some.injEq] at updated
  obtain ⟨_, rfl⟩ := updated
  refine ⟨rfl, ?_⟩
  cases recorded : bytes with
  | none => exact .inl (by simp)
  | some total => exact .inr (by simpa using bounded total recorded)

theorem JobRow.finishFailure_output {status : FailureStatus} {code message : String} {bytes : Nat}
    (updated : row.finishFailure fence status code message now bytes = some after)
    (bounded : bytes = row.outputSize.getD 0 ∨ bytes ≤ maxOutputBytes) :
    OutputStep maxOutputBytes row after := by
  simp only [finishFailure, Option.ite_none_right_eq_some, Option.some.injEq] at updated
  obtain ⟨⟨_, live⟩, rfl⟩ := updated
  refine ⟨rfl, ?_⟩
  rcases bounded with same | within
  · exact .inl (by simpa using same)
  · refine .inr ⟨?_, by simpa using within⟩
    simpa [Lifecycle.Live, lifecycle, or_comm] using live

/-- What a worker's operation does to the output columns; a finalization must meet a running job. -/
theorem WorkerOperation.run_output {operation : WorkerOperation}
    (ran : operation.run maxOutputBytes fence job = some next)
    (renders : ∀ run artifacts now, operation = .finalize run artifacts now →
      job.row.ownedBy fence → job.row.status ∈ JobStatus.leased → job.row.status ∈ JobStatus.active) :
    OutputStep maxOutputBytes job.row next.row := by
  cases operation with
  | heartbeat | expireRecoveryClaim =>
    refine JobRow.OutputKept.step ?_
    exact guarded_output (Job.updateColumns_row ran) rfl rfl
  | rejectInactive | startRunning =>
    exact JobRow.transitionOwned_output (Job.updateStatus_row ran) (by simp) (by simp)
  | prepareStages rendererImage =>
    rw [(Job.prepareStages_frame ran).2.1]
    exact .of_eq rfl rfl
  | startPdf =>
    obtain ⟨_, _, _, _, rfl⟩ := Job.updateStage_eq_some (fun row stage => stage.startPdf fence row) ran
    exact .of_eq rfl rfl
  | startSvg =>
    obtain ⟨_, _, _, _, rfl⟩ := Job.updateStage_eq_some (fun row stage => stage.startSvg fence row) ran
    exact .of_eq rfl rfl
  | markCanceled => exact JobRow.markCanceled_output (Job.updateStatus_row ran) (by simp)
  | finalize run artifacts now =>
    obtain ⟨_, bounded, _, held, ⟨_, canceled⟩ | ⟨_, inserted, inserting, ended⟩⟩ :=
      Job.finalize_cases ran
    · have updated := Job.updateStatus_row canceled
      have leased : job.row.status ∈ JobStatus.leased := by
        simp only [JobRow.markCanceled, Option.ite_none_right_eq_some] at updated
        exact updated.1.2
      refine JobRow.markCanceled_output updated fun total same => ?_
      rw [Option.mem_some.mp same] at bounded
      have active := renders run artifacts now rfl held leased
      rcases JobStatus.mem_leased.mp leased with status | status | status
      · exact ⟨.inl status, bounded⟩
      · exact ⟨.inr status, bounded⟩
      · simp [status] at active
    · have updated := Job.updateStatus_row ended
      rw [(Job.insertArtifacts_frame inserting).1] at updated
      exact JobRow.transitionOwned_output updated (by simp) (by simpa using bounded)
  | commitPdfFailure run artifacts now =>
    obtain ⟨_, bounded, _, _, ⟨_, canceled⟩ | ⟨_, _, inserted, _, publishing, ended⟩⟩ :=
      Job.commitPdfFailure_cases ran
    · exact JobRow.markCanceled_output (Job.updateStatus_row canceled) (by simp)
    · have updated := Job.updateStatus_row ended
      rw [(Job.publishArtifacts_frame publishing).1] at updated
      exact JobRow.transitionOwned_output updated (by simp) (by simpa using bounded)
  | commitPdf pdfSha256 synctex artifacts now =>
    obtain ⟨bounded, _, _, completed, inserted, _, completing, publishing, kept⟩ := Job.commitPdf_cases ran
    obtain ⟨_, _, _, _, rfl⟩ := Job.updateStage_eq_some _ completing
    have updated := Job.updateStatus_row kept
    rw [(Job.publishArtifacts_frame publishing).1] at updated
    exact JobRow.transitionOwned_output updated (by simp) (by simpa using bounded)
  | commitSvg run artifacts previousBytes now =>
    obtain ⟨bounded, _, _, completed, inserted, _, completing, publishing, ended⟩ := Job.commitSvg_cases ran
    obtain ⟨_, _, _, _, rfl⟩ := Job.updateStage_eq_some _ completing
    have updated := Job.updateStatus_row ended
    rw [(Job.publishArtifacts_frame publishing).1] at updated
    exact JobRow.transitionOwned_output updated (by simp) (by simpa using bounded)
  | recordPublishedFailure status code message now =>
    simp only [WorkerOperation.run, Job.recordPublishedFailure] at ran
    split at ran
    · exact JobRow.markCanceled_output (Job.updateStatus_row ran) (by simp)
    · exact JobRow.finishFailure_output (Job.updateStatus_row ran) (.inl rfl)
  | recordUnpublishedFailure status code message artifacts now =>
    obtain ⟨bounded, _, finished, ended, inserting⟩ := Job.recordUnpublishedFailure_cases ran
    rw [(Job.insertArtifacts_frame inserting).1]
    exact JobRow.finishFailure_output (Job.updateStatus_row ended) (.inr bounded)
  | recoverFailed | recoverQueued =>
    refine JobRow.OutputKept.step ?_
    exact guarded_output (Job.updateStatus_row ran) rfl rfl

/-- An action that is neither a worker's nor an SVG requeue leaves the output columns alone. -/
theorem JobAction.run_output_kept {action : JobAction} (ran : action.run maxOutputBytes job = some next)
    (noRetry : action.event ≠ .requeueSvg) (idle : ∀ fence operation, action ≠ .worker fence operation) :
    job.row.OutputKept next.row := by
  cases action with
  | uploadStarted | uploadFinished | uploadFailed | expireReservation | cancel | claimDeletion
  | failDeletion => exact guarded_output (Job.updateStatus_row ran) rfl rfl
  | markDeleting now =>
    obtain ⟨_, _, same⟩ := Option.map_eq_some_iff.mp (Job.updateStatus_row ran)
    rw [← same]
    exact ⟨rfl, rfl⟩
  | requeueSvg => exact absurd rfl noRetry
  | attachProjectRevision | blockAdmission | clearAdmission | claimExpiredLease =>
    exact guarded_output (Job.updateColumns_row ran) rfl rfl
  | claimNext workerId now expires queuedBefore previewRunning =>
    have updated := Job.updateStatus_row ran
    simp only [JobRow.claimNext, Option.ite_none_left_eq_some] at updated
    exact guarded_output updated.2 rfl rfl
  | worker fence operation => exact absurd rfl (idle fence operation)
  | finishDeletion now =>
    obtain ⟨_, updated, rfl⟩ := Option.map_eq_some_iff.mp ran
    exact guarded_output (Job.updateStatus_row updated) rfl rfl

/-- What an action other than an SVG requeue does to the output columns. -/
theorem JobAction.run_output {action : JobAction} (ran : action.run maxOutputBytes job = some next)
    (noRetry : action.event ≠ .requeueSvg)
    (renders : ∀ fence run artifacts now, action = .worker fence (.finalize run artifacts now) →
      job.row.ownedBy fence → job.row.status ∈ JobStatus.leased → job.row.status ∈ JobStatus.active) :
    OutputStep maxOutputBytes job.row next.row := by
  cases action with
  | worker fence operation =>
    exact WorkerOperation.run_output ran fun run artifacts now same =>
      renders fence run artifacts now (by rw [same])
  | _ => exact (JobAction.run_output_kept ran noRetry (by simp)).step

/-- An active job has the whole output limit reserved. -/
def JobRow.FullyReserved (maxOutputBytes : Nat) (row : JobRow) : Prop :=
  row.status ∈ JobStatus.active → row.reservedOutputBytes = maxOutputBytes

/-- A step that makes no ended job active does not raise the bytes of a fully reserved job. -/
theorem OutputStep.storageBytes_le (step : OutputStep maxOutputBytes row after)
    (reserved : row.FullyReserved maxOutputBytes)
    (active : after.status ∈ JobStatus.active → row.status ∈ JobStatus.active)
    (identity : after.identity = row.identity) : after.storageBytes ≤ row.storageBytes := by
  have sourceId : after.sourceId = row.sourceId := congrArg JobIdentity.sourceId identity
  have sourceSize : after.sourceSize = row.sourceSize := congrArg JobIdentity.sourceSize identity
  have source : after.sourceBytes = row.sourceBytes := by
    rw [JobRow.sourceBytes, JobRow.sourceBytes, sourceId, sourceSize]
  unfold JobRow.storageBytes
  rw [source]
  refine Nat.add_le_add_right ?_ _
  unfold JobRow.outputBytes
  rw [step.reserved]
  have recorded := step.recorded
  by_cases before : row.status ∈ JobStatus.active
  · have full := reserved before
    rw [if_pos before]
    split <;> omega
  · rw [if_neg before, if_neg fun now => before (active now)]
    rcases recorded with same | ⟨live, _⟩
    · exact Nat.le_of_eq same
    · refine absurd ?_ before
      rcases live with status | status <;> simp [show row.status = _ from status]

end LatexRenderer
