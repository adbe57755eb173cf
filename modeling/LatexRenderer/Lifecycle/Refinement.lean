import LatexRenderer.Lifecycle.Machine
import LatexRenderer.Model.Jobs.Effects

/-! # The code's statements and transactions refine the lifecycle

One lemma for each guarded update of the row and each transaction gives its lifecycle step.
-/

namespace LatexRenderer

open Machine Lifecycle

section Rows

variable {row next : JobRow}

theorem JobRow.transitionJob_step {source : List JobStatus} {target : JobStatus}
    {queuedAt : Option Timestamp} {now : Timestamp}
    (updated : row.transitionJob source target queuedAt now = some next) :
    row.status ∈ source ∧ next.lifecycle = { row.lifecycle with
      status := target, renderStatus := target.terminal? <|> row.renderStatus } := by
  simp only [transitionJob, Option.ite_none_right_eq_some, Option.some.injEq] at updated
  obtain ⟨member, rfl⟩ := updated
  exact ⟨member, rfl⟩

theorem JobRow.cancel_step {now : Timestamp} (updated : row.cancel now = some next) :
    Lifecycle.Step row.lifecycle .cancel next.lifecycle := by
  simp only [cancel, Option.ite_none_right_eq_some, Option.some.injEq] at updated
  obtain ⟨active, rfl⟩ := updated
  by_cases waiting : row.status ∈ cancelsAtOnce
  · simpa [lifecycle, waiting] using Lifecycle.Step.cancelAtOnce (s := row.lifecycle) waiting
  · have running : row.status = .running := by
      simp only [cancelsAtOnce, List.mem_cons, List.not_mem_nil, or_false, not_or] at waiting
      simp only [JobStatus.mem_active] at active
      tauto
    simpa [lifecycle, waiting] using Lifecycle.Step.cancelRunning (s := row.lifecycle) running

theorem JobRow.markDeleting_step {now : Timestamp} (updated : row.markDeleting now = some next) :
    Lifecycle.Step row.lifecycle .delete next.lifecycle := by
  obtain ⟨terminal, ended, rfl⟩ := Option.map_eq_some_iff.mp updated
  exact .delete (s := row.lifecycle) (JobStatus.terminal?_eq_some.mp ended)

theorem JobRow.claimNext_step {workerId : String} {now expires : Timestamp}
    {queuedBefore : Option Timestamp} {previewRunning : Bool}
    (updated : row.claimNext workerId now expires queuedBefore previewRunning = some next) :
    Lifecycle.Step row.lifecycle .claim next.lifecycle := by
  simp only [claimNext, Option.ite_none_left_eq_some, Option.ite_none_right_eq_some,
    Option.some.injEq] at updated
  obtain ⟨_, ⟨queued, _⟩, rfl⟩ := updated
  exact .claim (s := row.lifecycle) queued workerId expires

theorem JobRow.claimExpiredLease_step {stale : StaleLeaseRow} {owner : String}
    {now expires : Timestamp}
    (updated : row.claimExpiredLease stale owner now expires = some next) :
    Lifecycle.Step row.lifecycle .reclaim next.lifecycle := by
  simp only [claimExpiredLease, Option.ite_none_right_eq_some, Option.some.injEq] at updated
  obtain ⟨⟨same, held, _⟩, rfl⟩ := updated
  refine .reclaim (s := row.lifecycle) ?_ ?_ owner expires
  · exact (congrArg (· ∈ JobStatus.leased) same).mpr stale.leased
  · exact fun free => Option.some_ne_none _ (held.symm.trans free)

theorem JobRow.heartbeat_step {fence : Fence} {now expires : Timestamp}
    (updated : row.heartbeat fence now expires = some next) :
    Lifecycle.Step row.lifecycle (.worker fence) next.lifecycle := by
  simp only [heartbeat, Option.ite_none_right_eq_some, Option.some.injEq] at updated
  obtain ⟨⟨held, live⟩, rfl⟩ := updated
  refine .renew (s := row.lifecycle) held ?_ expires
  simp only [List.mem_cons, List.not_mem_nil, or_false] at live
  rcases live with validating | running
  · exact JobStatus.mem_leased.mpr (.inl validating)
  · exact JobStatus.mem_leased.mpr (.inr (.inl running))

theorem JobRow.expireRecoveryClaim_step {fence : Fence} {now : Timestamp}
    (updated : row.expireRecoveryClaim fence now = some next) :
    Lifecycle.Step row.lifecycle (.worker fence) next.lifecycle := by
  simp only [expireRecoveryClaim, Option.ite_none_right_eq_some, Option.some.injEq] at updated
  obtain ⟨⟨held, leased⟩, rfl⟩ := updated
  exact .renew (s := row.lifecycle) held leased now

theorem JobRow.markCanceled_step {fence : Fence} {now : Timestamp} {bytes : Option Nat}
    (updated : row.markCanceled fence now bytes = some next) :
    Lifecycle.Step row.lifecycle (.worker fence) next.lifecycle := by
  simp only [markCanceled, Option.ite_none_right_eq_some, Option.some.injEq] at updated
  obtain ⟨⟨held, leased⟩, rfl⟩ := updated
  exact .finish (s := row.lifecycle) held leased .canceled (fun other => absurd rfl other)
    (fun impossible => nomatch impossible) (by decide)

/-- Both statuses of a live claim may hold a lease. -/
private theorem leased_of_live {status : JobStatus} (live : status = .validating ∨ status = .running) :
    status ∈ JobStatus.leased := by
  rcases live with validating | running
  · exact JobStatus.mem_leased.mpr (.inl validating)
  · exact JobStatus.mem_leased.mpr (.inr (.inl running))

private theorem live_of_mem {status : JobStatus} (member : status ∈ [JobStatus.validating, .running]) :
    status = .validating ∨ status = .running := by
  simpa using member

theorem JobRow.finishFailure_step {fence : Fence} {status : FailureStatus} {code message : String}
    {now : Timestamp} {bytes : Nat}
    (updated : row.finishFailure fence status code message now bytes = some next) :
    Lifecycle.Step row.lifecycle (.worker fence) next.lifecycle := by
  simp only [finishFailure, Option.ite_none_right_eq_some, Option.some.injEq] at updated
  obtain ⟨⟨held, live⟩, rfl⟩ := updated
  have live := live_of_mem live
  exact .finish (s := row.lifecycle) held (leased_of_live live) status.terminal (fun _ => live)
    (by cases status <;> simp [FailureStatus.terminal]) (by cases status <;> decide)

theorem JobRow.recoverFailed_step {fence : Fence} {now : Timestamp}
    (updated : row.recoverFailed fence now = some next) :
    Lifecycle.Step row.lifecycle (.worker fence) next.lifecycle := by
  simp only [recoverFailed, Option.ite_none_right_eq_some, Option.some.injEq] at updated
  obtain ⟨⟨held, live⟩, rfl⟩ := updated
  have live := live_of_mem live
  exact .finish (s := row.lifecycle) held (leased_of_live live) .failed (fun _ => live)
    (fun impossible => nomatch impossible) (by decide)

theorem JobRow.recoverQueued_step {fence : Fence} {now : Timestamp}
    (updated : row.recoverQueued fence now = some next) :
    Lifecycle.Step row.lifecycle (.recoverQueued fence) next.lifecycle := by
  simp only [recoverQueued, Option.ite_none_right_eq_some, Option.some.injEq] at updated
  obtain ⟨⟨held, live⟩, rfl⟩ := updated
  exact .recoverQueued (s := row.lifecycle) held (live_of_mem live)

/-- `transitionOwned` to a terminal status with the lease released. -/
theorem JobRow.transitionOwned_finish (terminal : TerminalStatus) {fence : Fence}
    {source : List JobStatus} {now : Timestamp} {updates : WorkerUpdates}
    (live : row.status = .validating ∨ row.status = .running)
    (success : terminal = .succeeded → row.status = .running ∧ row.cancelRequestedAt = none)
    (ran : terminal ≠ .expired) (render : updates.renderStatus = some terminal)
    (release : updates.releaseLease = true)
    (updated : row.transitionOwned fence source terminal.toJob now updates = some next) :
    Lifecycle.Step row.lifecycle (.worker fence) next.lifecycle := by
  have held := (transitionOwned_guard updated).1
  simp only [transitionOwned, Option.ite_none_right_eq_some, Option.some.injEq] at updated
  obtain ⟨_, rfl⟩ := updated
  have finished := Lifecycle.Step.finish (s := row.lifecycle) held (leased_of_live live) terminal
    (fun _ => live) (fun succeeded => ⟨(success succeeded).1, by simp [lifecycle, (success succeeded).2]⟩)
    ran
  simpa [lifecycle, render, release] using finished

theorem JobRow.expireReservation_step {now cutoff : Timestamp} {claimActive : Bool}
    (updated : row.expireReservation now cutoff claimActive = some next) :
    Lifecycle.Step row.lifecycle .expire next.lifecycle := by
  simp only [expireReservation, Option.ite_none_right_eq_some, Option.some.injEq] at updated
  obtain ⟨⟨waiting, _⟩, rfl⟩ := updated
  simp only [List.mem_cons, List.not_mem_nil, or_false] at waiting
  exact .expire (s := row.lifecycle) waiting

theorem JobRow.claimDeletion_step {view : CleanupView} {since : Timestamp}
    (updated : row.claimDeletion view since = some next) :
    Lifecycle.Step row.lifecycle .cleanupClaim next.lifecycle := by
  simp only [claimDeletion, Option.ite_none_right_eq_some, Option.some.injEq] at updated
  obtain ⟨⟨due, _⟩, rfl⟩ := updated
  refine .cleanupClaim (s := row.lifecycle) ?_
  rcases due with ⟨kept, ended, _⟩ | deleting | ⟨again, _⟩
  · exact .inl ⟨kept, ended⟩
  · exact .inr (.inl deleting)
  · exact .inr (.inr again)

theorem JobRow.finishDeletion_step {now : Timestamp} (updated : row.finishDeletion now = some next) :
    Lifecycle.Step row.lifecycle .cleanupFinish next.lifecycle := by
  simp only [finishDeletion, Option.ite_none_right_eq_some, Option.some.injEq] at updated
  obtain ⟨claimed, rfl⟩ := updated
  exact .cleanupFinish (s := row.lifecycle) claimed

theorem JobRow.failDeletion_step {now : Timestamp} {error : String}
    (updated : row.failDeletion now error = some next) :
    Lifecycle.Step row.lifecycle .cleanupFail next.lifecycle := by
  simp only [failDeletion, Option.ite_none_right_eq_some, Option.some.injEq] at updated
  obtain ⟨claimed, rfl⟩ := updated
  refine .cleanupFail (s := row.lifecycle) claimed ?_
  split
  · exact .inl rfl
  · exact .inr rfl

end Rows

section Transactions

variable {maxOutputBytes : Nat} {fence : Fence} {job next : Job} {now : Timestamp}

theorem Job.markCanceled_step (canceled : job.markCanceled fence now = some next) :
    Lifecycle.Step job.row.lifecycle (.worker fence) next.row.lifecycle :=
  JobRow.markCanceled_step (updateStatus_row canceled)

theorem Job.startRunning_step (started : job.startRunning fence now = some next) :
    Lifecycle.Step job.row.lifecycle (.worker fence) next.row.lifecycle := by
  have updated := updateStatus_row started
  obtain ⟨held, validating⟩ := JobRow.transitionOwned_guard updated
  simp only [JobRow.transitionOwned, Option.ite_none_right_eq_some, Option.some.injEq] at updated
  rw [← updated.2]
  exact .start (s := job.row.lifecycle) held (List.mem_singleton.mp validating)

theorem Job.rejectInactive_step (rejected : job.rejectInactive fence now = some next) :
    Lifecycle.Step job.row.lifecycle (.worker fence) next.row.lifecycle := by
  have updated := updateStatus_row rejected
  have validating := List.mem_singleton.mp (JobRow.transitionOwned_guard updated).2
  exact JobRow.transitionOwned_finish .rejected (.inl validating)
    (fun impossible => nomatch impossible) (by decide) rfl rfl updated

/-- A stage statement that demands `owned` is work on a held claim. -/
theorem Job.updateStage_step {update : JobRow → StageRow → Option StageRow}
    (demands : ∀ {row old new}, update row old = some new → old.owned fence row)
    (updated : job.updateStage update = some next) :
    Lifecycle.Step job.row.lifecycle (.worker fence) next.row.lifecycle := by
  obtain ⟨old, new, _, changed, rfl⟩ := updateStage_eq_some _ updated
  exact .work (s := job.row.lifecycle) (demands changed).1

theorem ResultStatus.terminal_ne_expired (status : ResultStatus) : status.terminal ≠ .expired := by
  cases status <;> decide

/-- The end of a render that was not being canceled. -/
theorem Job.endRender_step {result : RenderResult} {exitCode total : Nat}
    {heartbeatAt : Option Timestamp} (going : job.row.cancelRequestedAt = none)
    (ended : job.endRender fence result exitCode total heartbeatAt now = some next) :
    Lifecycle.Step job.row.lifecycle (.worker fence) next.row.lifecycle := by
  have updated := updateStatus_row ended
  have running := List.mem_singleton.mp (JobRow.transitionOwned_guard updated).2
  exact JobRow.transitionOwned_finish _ (.inr running) (fun _ => ⟨running, going⟩)
    (ResultStatus.terminal_ne_expired _) rfl rfl updated

theorem Job.finalize_step {run : Execution} {artifacts : List ValidatedArtifact}
    (committed : job.finalize maxOutputBytes fence run artifacts now = some next) :
    Lifecycle.Step job.row.lifecycle (.worker fence) next.row.lifecycle := by
  obtain ⟨_, _, _, _, ⟨_, canceled⟩ | ⟨⟨going, _⟩, inserted, inserting, ended⟩⟩ := finalize_cases committed
  · exact JobRow.markCanceled_step (updateStatus_row canceled)
  · have frame := insertArtifacts_frame inserting
    rw [← frame.1]
    exact endRender_step (frame.1 ▸ going) ended

theorem Job.commitPdfFailure_step {run : Execution} {artifacts : List ValidatedArtifact}
    (committed : job.commitPdfFailure maxOutputBytes fence run artifacts now = some next) :
    Lifecycle.Step job.row.lifecycle (.worker fence) next.row.lifecycle := by
  obtain ⟨_, _, _, _, ⟨_, canceled⟩ | ⟨going, _, inserted, _, publishing, ended⟩⟩ :=
    commitPdfFailure_cases committed
  · exact markCanceled_step canceled
  · have frame := publishArtifacts_frame publishing
    rw [← frame.1]
    exact endRender_step (frame.1 ▸ going) ended

theorem Job.commitPdf_step {pdfSha256 : Sha256} {synctex : SynctexDigest}
    {artifacts : List ValidatedArtifact}
    (committed : job.commitPdf maxOutputBytes fence pdfSha256 synctex artifacts now = some next) :
    Lifecycle.Step job.row.lifecycle (.worker fence) next.row.lifecycle := by
  obtain ⟨_, _, _, completed, inserted, _, completing, publishing, kept⟩ := commitPdf_cases committed
  obtain ⟨old, new, _, changed, rfl⟩ := updateStage_eq_some _ completing
  have updated := updateStatus_row kept
  rw [(publishArtifacts_frame publishing).1] at updated
  obtain ⟨held, running⟩ := JobRow.transitionOwned_guard updated
  simp only [JobRow.transitionOwned, Option.ite_none_right_eq_some, Option.some.injEq] at updated
  have same : next.row.lifecycle = job.row.lifecycle := by
    have status : job.row.status = .running := List.mem_singleton.mp running
    rw [← updated.2]
    simp [JobRow.lifecycle, status]
  rw [same]
  exact .work held

theorem Job.commitSvg_step {run : Except ProcessError Execution} {artifacts : List ValidatedArtifact}
    {previousBytes : Nat}
    (committed : job.commitSvg maxOutputBytes fence run artifacts previousBytes now = some next) :
    Lifecycle.Step job.row.lifecycle (.worker fence) next.row.lifecycle := by
  obtain ⟨_, _, _, completed, inserted, _, completing, publishing, ended⟩ := commitSvg_cases committed
  obtain ⟨old, new, _, changed, rfl⟩ := updateStage_eq_some _ completing
  have frame := publishArtifacts_frame publishing
  have step := endRender_step (frame.1 ▸ (StageRow.completeSvg_owned changed).2.2.1) ended
  rw [frame.1] at step
  exact step

theorem Job.recordPublishedFailure_step {status : FailureStatus} {errorCode message : String}
    (recorded : job.recordPublishedFailure fence status errorCode message now = some next) :
    Lifecycle.Step job.row.lifecycle (.worker fence) next.row.lifecycle := by
  unfold recordPublishedFailure at recorded
  split at recorded
  · exact markCanceled_step recorded
  · exact JobRow.finishFailure_step (updateStatus_row recorded)

theorem Job.recordUnpublishedFailure_step {status : FailureStatus} {errorCode message : String}
    {artifacts : List ValidatedArtifact}
    (recorded : job.recordUnpublishedFailure maxOutputBytes fence status errorCode message artifacts now
      = some next) :
    Lifecycle.Step job.row.lifecycle (.worker fence) next.row.lifecycle := by
  obtain ⟨_, _, finished, ended, inserting⟩ := recordUnpublishedFailure_cases recorded
  rw [(insertArtifacts_frame inserting).1]
  exact JobRow.finishFailure_step (updateStatus_row ended)

theorem Job.requeueSvg_step {input : RequeueInput} (requeued : job.requeueSvg input = some next) :
    Lifecycle.Step job.row.lifecycle .requeueSvg next.row.lifecycle := by
  obtain ⟨_, _, ended, free, _, rfl⟩ := requeueSvg_cases requeued
  exact .requeueSvg (s := job.row.lifecycle) ended free

theorem Job.finishDeletion_step (deleted : job.finishDeletion now = some next) :
    Lifecycle.Step job.row.lifecycle .cleanupFinish next.row.lifecycle := by
  obtain ⟨finished, updated, rfl⟩ := Option.map_eq_some_iff.mp deleted
  have found := updateStatus_row updated
  exact JobRow.finishDeletion_step found

end Transactions

/-- The refinement: every action of the code is a lifecycle step under its event. -/
theorem JobAction.run_step {maxOutputBytes : Nat} {job next : Job} {action : JobAction}
    (ran : action.run maxOutputBytes job = some next) :
    Lifecycle.Step job.row.lifecycle action.event next.row.lifecycle := by
  cases action with
  | uploadStarted now =>
    obtain ⟨member, same⟩ := JobRow.transitionJob_step (Job.updateStatus_row ran)
    rw [same]
    exact .uploadStarted (s := job.row.lifecycle) (List.mem_singleton.mp member)
  | uploadFinished now =>
    obtain ⟨member, same⟩ := JobRow.transitionJob_step (Job.updateStatus_row ran)
    rw [same]
    exact .uploadFinished (s := job.row.lifecycle) (List.mem_singleton.mp member)
  | uploadFailed now =>
    have updated := Job.updateStatus_row ran
    simp only [JobRow.restoreReservedAfterUploadFailure, Option.ite_none_right_eq_some,
      Option.some.injEq] at updated
    rw [← updated.2]
    exact .uploadFailed (s := job.row.lifecycle) updated.1
  | expireReservation now cutoff claimActive =>
    exact JobRow.expireReservation_step (Job.updateStatus_row ran)
  | cancel now => exact JobRow.cancel_step (Job.updateStatus_row ran)
  | markDeleting now => exact JobRow.markDeleting_step (Job.updateStatus_row ran)
  | requeueSvg input => exact Job.requeueSvg_step ran
  | attachProjectRevision revisionId =>
    have updated := Job.updateColumns_row ran
    simp only [JobRow.attachProjectRevision, Option.ite_none_right_eq_some, Option.some.injEq] at updated
    rw [← updated.2]
    exact .housekeeping job.row.lifecycle
  | blockAdmission message now =>
    have updated := Job.updateColumns_row ran
    simp only [JobRow.blockAdmission, Option.ite_none_right_eq_some, Option.some.injEq] at updated
    rw [← updated.2]
    exact .housekeeping job.row.lifecycle
  | clearAdmission now =>
    have updated := Job.updateColumns_row ran
    simp only [JobRow.clearAdmission, Option.ite_none_right_eq_some, Option.some.injEq] at updated
    rw [← updated.2]
    exact .housekeeping job.row.lifecycle
  | claimNext workerId now expires queuedBefore previewRunning =>
    exact JobRow.claimNext_step (Job.updateStatus_row ran)
  | claimExpiredLease stale workerId now expires =>
    exact JobRow.claimExpiredLease_step (Job.updateColumns_row ran)
  | claimDeletion view => exact JobRow.claimDeletion_step (Job.updateStatus_row ran)
  | finishDeletion now => exact Job.finishDeletion_step ran
  | failDeletion now error => exact JobRow.failDeletion_step (Job.updateStatus_row ran)
  | worker fence operation =>
    cases operation with
    | heartbeat now expires => exact JobRow.heartbeat_step (Job.updateColumns_row ran)
    | rejectInactive now => exact Job.rejectInactive_step ran
    | startRunning now => exact Job.startRunning_step ran
    | prepareStages rendererImage =>
      obtain ⟨held, same, _⟩ := Job.prepareStages_frame ran
      rw [same]
      exact .work held
    | startPdf => exact Job.updateStage_step StageRow.startPdf_owned ran
    | startSvg => exact Job.updateStage_step StageRow.startSvg_owned ran
    | markCanceled now => exact Job.markCanceled_step ran
    | finalize run artifacts now => exact Job.finalize_step ran
    | commitPdfFailure run artifacts now => exact Job.commitPdfFailure_step ran
    | commitPdf pdfSha256 synctex artifacts now => exact Job.commitPdf_step ran
    | commitSvg run artifacts previousBytes now => exact Job.commitSvg_step ran
    | recordPublishedFailure status code message now => exact Job.recordPublishedFailure_step ran
    | recordUnpublishedFailure status code message artifacts now =>
      exact Job.recordUnpublishedFailure_step ran
    | expireRecoveryClaim now => exact JobRow.expireRecoveryClaim_step (Job.updateColumns_row ran)
    | recoverFailed now => exact JobRow.recoverFailed_step (Job.updateStatus_row ran)
    | recoverQueued now => exact JobRow.recoverQueued_step (Job.updateStatus_row ran)

theorem Job.Inserted.fresh {job : Job} (inserted : job.Inserted) : job.row.lifecycle.Fresh := by
  cases inserted with
  | reserved input => exact ⟨.inl rfl, rfl, rfl, rfl, rfl, rfl⟩
  | queued input source ownerReferences row found =>
    simp only [insertQueued?, Option.ite_none_right_eq_some, Option.some.injEq] at found
    obtain ⟨_, rfl⟩ := found
    exact ⟨.inr rfl, rfl, rfl, rfl, rfl, rfl⟩
  | retry input => exact ⟨.inr rfl, rfl, rfl, rfl, rfl, rfl⟩

/-- The job machine simulates the lifecycle machine through the lifecycle columns. -/
theorem jobMachine_simulates (maxOutputBytes : Nat) :
    Simulates (jobMachine maxOutputBytes) lifecycleMachine (·.row.lifecycle) where
  init := Job.Inserted.fresh
  step _ taken := .inr ⟨_, JobAction.run_step taken⟩

end LatexRenderer
