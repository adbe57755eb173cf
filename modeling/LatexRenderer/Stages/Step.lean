import LatexRenderer.Lifecycle.Identity
import LatexRenderer.Lifecycle.Activity
import LatexRenderer.Model.Jobs.System

/-! # What an action does to the output stages of its job

A stage row changes in seven ways: the triggers run with a new job status, a stage starts or is
completed, or the SVG stage is requeued. Every action on a staged job is one of these.
-/

namespace LatexRenderer

open Machine

/-- Both triggers, in the order they run in. -/
def StageRow.triggered (before after : JobRow) (stage : StageRow) : StageRow :=
  (stage.terminalTrigger after).recoverTrigger before after

/-- The change of a stage row in a step that takes its job's row from `before` to `after`. -/
inductive StageStep (before after : JobRow) (stage : StageRow) : StageRow → Prop
  | kept (status : after.status = before.status) (outcome : after.renderStatus = before.renderStatus) :
      StageStep before after stage stage
  | triggered (success : after.lifecycle.Succeeded → before.lifecycle.Succeeded) :
      StageStep before after stage (stage.triggered before after)
  | pdfStarted (same : after = before) (running : before.status = .running)
      (queued : stage.pdfStatus = .queued) :
      StageStep before after stage { stage with pdfStatus := .running }
  | svgStarted (same : after = before) (running : before.status = .running)
      (queued : stage.svgStatus = .queued) (published : stage.pdfStatus = .succeeded) :
      StageStep before after stage { stage with svgStatus := .running }
  | pdfCompleted (before_running : before.status = .running) (running : after.status = .running)
      (outcome : after.renderStatus = before.renderStatus) (started : stage.pdfStatus = .running)
      (input : StageRow.PdfInput) (numbered : 0 < input.storageGeneration) :
      StageStep before after stage (stage.withPdf input)
  | svgCompleted (running : before.status = .running) (result : ResultStatus)
      (ended : after.status = result.terminal.toJob) (outcome : after.renderStatus = some result.terminal)
      (started : stage.svgStatus = .running) (input : StageRow.SvgInput)
      (status : input.status = result.stage) (numbered : 0 < input.storageGeneration) :
      StageStep before after stage ((stage.withSvg input).triggered before after)
  | requeued (queued : after.status = .queued) (outcome : after.renderStatus = none)
      (published : stage.pdfStatus = .succeeded)
      (ended : stage.svgStatus = .failed ∨ stage.svgStatus = .timeout ∨ stage.svgStatus = .canceled)
      (attempts : stage.svgAttempt < 8) :
      StageStep before after stage stage.requeue

/-- The stage row that `initialize` inserts. -/
def StageRow.initial (row : JobRow) (rendererImage : String) : StageRow where
  sourceSha256 := row.sourceSha256
  sourceId := row.sourceId
  entrypoint := row.entrypoint
  projectRevisionId := row.projectRevisionId
  rendererImage := rendererImage

variable {maxOutputBytes : Nat} {fence : Fence} {job next : Job} {now : Timestamp} {stage : StageRow}

/-- Neither trigger fires for a job that stays in or enters the running status. -/
theorem StageRow.triggered_running {before after : JobRow} (running : after.status = .running)
    (stage : StageRow) : stage.triggered before after = stage := by
  simp [triggered, terminalTrigger, recoverTrigger, StageStatus.ofJob?, running]

section Columns

variable {row after : JobRow}

theorem JobRow.transitionOwned_columns {source : List JobStatus} {target : JobStatus}
    {updates : WorkerUpdates} (updated : row.transitionOwned fence source target now updates = some after) :
    after.status = target ∧ after.renderStatus = (updates.renderStatus <|> row.renderStatus) := by
  simp only [transitionOwned, Option.ite_none_right_eq_some, Option.some.injEq] at updated
  obtain ⟨_, rfl⟩ := updated
  exact ⟨rfl, rfl⟩

theorem JobRow.markCanceled_status {bytes : Option Nat}
    (updated : row.markCanceled fence now bytes = some after) : after.status = .canceled := by
  simp only [markCanceled, Option.ite_none_right_eq_some, Option.some.injEq] at updated
  obtain ⟨_, rfl⟩ := updated
  rfl

theorem JobRow.finishFailure_status {status : FailureStatus} {code message : String} {bytes : Nat}
    (updated : row.finishFailure fence status code message now bytes = some after) :
    after.status ≠ .succeeded := by
  simp only [finishFailure, Option.ite_none_right_eq_some, Option.some.injEq] at updated
  obtain ⟨_, rfl⟩ := updated
  cases status <;> simp [FailureStatus.terminal, TerminalStatus.toJob]

theorem StageRow.completePdf_eq_some {input : StageRow.PdfInput} {new : StageRow}
    (completed : stage.completePdf fence input row = some new) :
    row.status = .running ∧ stage.pdfStatus = .running ∧ new = stage.withPdf input := by
  simp only [completePdf, Option.ite_none_right_eq_some, Option.some.injEq] at completed
  obtain ⟨⟨started, owned⟩, rfl⟩ := completed
  exact ⟨owned.2.1, started, rfl⟩

theorem StageRow.completeSvg_eq_some {input : StageRow.SvgInput} {new : StageRow}
    (completed : stage.completeSvg fence input row = some new) :
    row.status = .running ∧ stage.svgStatus = .running ∧ new = stage.withSvg input := by
  simp only [completeSvg, Option.ite_none_right_eq_some, Option.some.injEq] at completed
  obtain ⟨⟨started, owned⟩, rfl⟩ := completed
  exact ⟨owned.2.1, started, rfl⟩

end Columns

/-- A status update on a staged job is a step of the triggers alone, unless it records success. -/
private theorem updateStatus_stageStep {mid : Job} {update : JobRow → Option JobRow}
    {event : LifecycleEvent} (row : mid.row = job.row) (present : mid.stages = some stage)
    (updated : mid.updateStatus update = some next)
    (step : Lifecycle.Step job.row.lifecycle event next.row.lifecycle)
    (other : ∀ fence, event = .worker fence → next.row.status ≠ .succeeded) :
    ∃ new, next.stages = some new ∧ StageStep job.row next.row stage new := by
  refine ⟨stage.triggered job.row next.row, ?_, .triggered fun success => ?_⟩
  · rw [Job.updateStatus_stages updated, present, row]
    rfl
  · exact (step.succeeded success).resolve_right fun ⟨⟨fence, worker⟩, ended⟩ => other fence worker ended

/-- A statement that leaves the status of a staged job out keeps its stage row. -/
private theorem updateColumns_stageStep {update : JobRow → Option JobRow}
    (present : job.stages = some stage) (updated : job.updateColumns update = some next)
    (same : next.row.status = job.row.status ∧ next.row.renderStatus = job.row.renderStatus) :
    ∃ new, next.stages = some new ∧ StageStep job.row next.row stage new :=
  ⟨stage, by rw [(Job.updateColumns_frame updated).1, present], .kept same.1 same.2⟩

/-- A guarded update that keeps the status and the outcome. -/
private theorem guarded_status {p : Prop} [Decidable p] {row after changed : JobRow}
    (updated : (if p then some changed else none) = some after)
    (same : changed.status = row.status ∧ changed.renderStatus = row.renderStatus) :
    after.status = row.status ∧ after.renderStatus = row.renderStatus := by
  obtain ⟨_, eq⟩ := (Option.ite_none_right_eq_some ..).mp updated
  rwa [← Option.some.inj eq]

/-- What a worker's operation does to the stages of a job that was asked for an SVG. -/
theorem WorkerOperation.stageStep {operation : WorkerOperation}
    (ran : operation.run maxOutputBytes fence job = some next) (present : job.stages = some stage)
    (asked : .svg ∈ job.row.outputs) :
    ∃ new, next.stages = some new ∧ StageStep job.row next.row stage new := by
  have step : Lifecycle.Step job.row.lifecycle (JobAction.worker fence operation).event next.row.lifecycle :=
    JobAction.run_step ran
  cases operation with
  | heartbeat | expireRecoveryClaim =>
    exact updateColumns_stageStep present ran (guarded_status (Job.updateColumns_row ran) ⟨rfl, rfl⟩)
  | rejectInactive | startRunning =>
    have status := (JobRow.transitionOwned_columns (Job.updateStatus_row ran)).1
    exact updateStatus_stageStep rfl present ran step (by simp [status])
  | markCanceled =>
    have status := JobRow.markCanceled_status (Job.updateStatus_row ran)
    exact updateStatus_stageStep rfl present ran step (by simp [status])
  | recoverFailed | recoverQueued =>
    have updated := Job.updateStatus_row ran
    simp only [JobRow.recoverFailed, JobRow.recoverQueued, Option.ite_none_right_eq_some,
      Option.some.injEq] at updated
    exact updateStatus_stageStep rfl present ran step (by simp [← updated.2])
  | prepareStages rendererImage =>
    simp [WorkerOperation.run, Job.prepareStages, Job.initializeStages, present] at ran
  | startPdf =>
    obtain ⟨old, new, found, started, rfl⟩ :=
      Job.updateStage_eq_some (fun row stage => stage.startPdf fence row) ran
    obtain rfl := Option.some.inj (present.symm.trans found)
    simp only [StageRow.startPdf, Option.ite_none_right_eq_some, Option.some.injEq] at started
    obtain ⟨⟨queued, owned⟩, rfl⟩ := started
    exact ⟨_, rfl, .pdfStarted rfl owned.2.1 queued⟩
  | startSvg =>
    obtain ⟨old, new, found, started, rfl⟩ :=
      Job.updateStage_eq_some (fun row stage => stage.startSvg fence row) ran
    obtain rfl := Option.some.inj (present.symm.trans found)
    simp only [StageRow.startSvg, Option.ite_none_right_eq_some, Option.some.injEq] at started
    obtain ⟨⟨queued, owned, published⟩, rfl⟩ := started
    exact ⟨_, rfl, .svgStarted rfl owned.2.1 queued published⟩
  | finalize => exact absurd asked (Job.finalize_cases ran).1
  | commitPdfFailure run artifacts now =>
    obtain ⟨unsuccessful, _, _, _, ⟨_, canceled⟩ | ⟨_, _, inserted, _, publishing, ended⟩⟩ :=
      Job.commitPdfFailure_cases ran
    · have status := JobRow.markCanceled_status (Job.updateStatus_row canceled)
      exact updateStatus_stageStep rfl present canceled step (by simp [status])
    · have frame := Job.publishArtifacts_frame publishing
      have status := (JobRow.transitionOwned_columns (Job.updateStatus_row ended)).1
      refine updateStatus_stageStep frame.1 (frame.2.trans present) ended step ?_
      rw [status]
      cases result : (classifyRenderResult run).status <;>
        simp [result, ResultStatus.terminal, TerminalStatus.toJob] at unsuccessful ⊢
  | commitPdf pdfSha256 synctex artifacts now =>
    obtain ⟨_, _, generation, completed, inserted, numbered, completing, publishing, kept⟩ :=
      Job.commitPdf_cases ran
    obtain ⟨old, new, found, complete, rfl⟩ := Job.updateStage_eq_some _ completing
    obtain rfl := Option.some.inj (present.symm.trans found)
    obtain ⟨running, started, rfl⟩ := StageRow.completePdf_eq_some complete
    have frame := Job.publishArtifacts_frame publishing
    have columns := JobRow.transitionOwned_columns (Job.updateStatus_row kept)
    have stages : next.stages = some (stage.withPdf
        ⟨generation, pdfSha256, synctex.sha256, synctex.bytes, now⟩) := by
      rw [Job.updateStatus_stages kept, frame.2, Option.map_some]
      exact congrArg some (StageRow.triggered_running columns.1 _)
    have outcome : next.row.renderStatus = job.row.renderStatus := by
      rw [columns.2, frame.1]
      rfl
    exact ⟨_, stages, .pdfCompleted running columns.1 outcome started _
      (storageGeneration?_eq_some numbered).2⟩
  | commitSvg run artifacts previousBytes now =>
    obtain ⟨_, _, generation, completed, inserted, numbered, completing, publishing, ended⟩ :=
      Job.commitSvg_cases ran
    obtain ⟨old, new, found, complete, rfl⟩ := Job.updateStage_eq_some _ completing
    obtain rfl := Option.some.inj (present.symm.trans found)
    obtain ⟨running, started, rfl⟩ := StageRow.completeSvg_eq_some complete
    have frame := Job.publishArtifacts_frame publishing
    have columns := JobRow.transitionOwned_columns (Job.updateStatus_row ended)
    have stages : next.stages = some ((stage.withSvg ⟨generation, (svgResult run).1.status.stage,
        (svgResult run).1.errorCode, (svgResult run).1.errorMessage, now⟩).triggered job.row next.row) := by
      rw [Job.updateStatus_stages ended, frame.1, frame.2]
      rfl
    exact ⟨_, stages, .svgCompleted running _ columns.1 columns.2 started _ rfl
      (storageGeneration?_eq_some numbered).2⟩
  | recordPublishedFailure status code message now =>
    simp only [WorkerOperation.run, Job.recordPublishedFailure] at ran
    split at ran
    · have status := JobRow.markCanceled_status (Job.updateStatus_row ran)
      exact updateStatus_stageStep rfl present ran step (by simp [status])
    · have status := JobRow.finishFailure_status (Job.updateStatus_row ran)
      exact updateStatus_stageStep rfl present ran step (fun _ _ => status)
  | recordUnpublishedFailure status code message artifacts now =>
    obtain ⟨_, _, finished, ended, inserting⟩ := Job.recordUnpublishedFailure_cases ran
    have status := JobRow.finishFailure_status (Job.updateStatus_row ended)
    have frame := Job.insertArtifacts_frame inserting
    rw [frame.1] at step ⊢
    rw [frame.2]
    exact updateStatus_stageStep rfl present ended step (fun _ _ => status)

/-- What an action does to the stages of a job that was asked for an SVG. -/
theorem JobAction.stageStep {action : JobAction} (ran : action.run maxOutputBytes job = some next)
    (present : job.stages = some stage) (asked : .svg ∈ job.row.outputs) :
    ∃ new, next.stages = some new ∧ StageStep job.row next.row stage new := by
  have step := JobAction.run_step ran
  cases action with
  | worker fence operation => exact WorkerOperation.stageStep ran present asked
  | uploadStarted | uploadFinished | uploadFailed | expireReservation | cancel | markDeleting | claimNext
  | claimDeletion | failDeletion =>
    exact updateStatus_stageStep rfl present ran step (by simp [JobAction.event])
  | requeueSvg input =>
    obtain ⟨old, found, _, _, ready, rfl⟩ := Job.requeueSvg_cases ran
    obtain rfl := Option.some.inj (present.symm.trans found)
    have ended := ready.2.2.2.2.2.2.2.1
    simp only [List.mem_cons, List.not_mem_nil, or_false] at ended
    exact ⟨_, rfl, .requeued rfl rfl ready.1 ended ready.2.2.2.2.2.2.2.2⟩
  | attachProjectRevision | blockAdmission | clearAdmission | claimExpiredLease =>
    exact updateColumns_stageStep present ran (guarded_status (Job.updateColumns_row ran) ⟨rfl, rfl⟩)
  | finishDeletion now =>
    obtain ⟨deleted, updated, rfl⟩ := Option.map_eq_some_iff.mp ran
    change ∃ new, deleted.stages = some new ∧ StageStep job.row deleted.row stage new
    exact updateStatus_stageStep rfl present updated step (by simp [JobAction.event])

/-- The stage row of a job appears when a worker prepares the stages of a live job that was asked for an
SVG; no other operation of a worker inserts one. -/
theorem WorkerOperation.stages_of_none {operation : WorkerOperation}
    (ran : operation.run maxOutputBytes fence job = some next) (absent : job.stages = none) :
    next.stages = none ∨ next.row = job.row ∧ .svg ∈ job.row.outputs ∧
      (job.row.status = .validating ∨ job.row.status = .running) ∧
      ∃ rendererImage, next.stages = some (StageRow.initial job.row rendererImage) := by
  have updated : ∀ {mid after : Job} {update}, mid.stages = none → mid.updateStatus update = some after →
      after.stages = none := fun none changed => by rw [Job.updateStatus_stages changed, none]; rfl
  have unstaged : ∀ {after : Job} {update}, job.updateStage update ≠ some after := fun changed => by
    obtain ⟨_, _, present, _⟩ := Job.updateStage_eq_some _ changed
    simp [absent] at present
  cases operation with
  | heartbeat | expireRecoveryClaim => exact .inl ((Job.updateColumns_frame ran).1.trans absent)
  | rejectInactive | startRunning | markCanceled | recoverFailed | recoverQueued =>
    exact .inl (updated absent ran)
  | startPdf | startSvg => simp [WorkerOperation.run, Job.updateStage, absent] at ran
  | prepareStages rendererImage =>
    simp only [WorkerOperation.run, Job.prepareStages, Job.initializeStages, Option.bind_eq_bind,
      Option.bind_eq_some_iff, Option.ite_none_right_eq_some, Option.some.injEq] at ran
    obtain ⟨_, _, ⟨_, live, _, asked, _⟩, rfl⟩ := ran
    exact .inr ⟨rfl, asked, by simpa using live, rendererImage, rfl⟩
  | finalize run artifacts now =>
    obtain ⟨_, _, _, _, ⟨_, canceled⟩ | ⟨_, inserted, inserting, ended⟩⟩ := Job.finalize_cases ran
    · exact .inl (updated absent canceled)
    · exact .inl (updated ((Job.insertArtifacts_frame inserting).2.trans absent) ended)
  | commitPdfFailure run artifacts now =>
    obtain ⟨_, _, _, _, ⟨_, canceled⟩ | ⟨_, _, inserted, _, publishing, ended⟩⟩ :=
      Job.commitPdfFailure_cases ran
    · exact .inl (updated absent canceled)
    · exact .inl (updated ((Job.publishArtifacts_frame publishing).2.trans absent) ended)
  | commitPdf pdfSha256 synctex artifacts now =>
    obtain ⟨_, _, _, _, _, _, completing, _⟩ := Job.commitPdf_cases ran
    exact absurd completing unstaged
  | commitSvg run artifacts previousBytes now =>
    obtain ⟨_, _, _, _, _, _, completing, _⟩ := Job.commitSvg_cases ran
    exact absurd completing unstaged
  | recordPublishedFailure status code message now =>
    simp only [WorkerOperation.run, Job.recordPublishedFailure] at ran
    split at ran
    · exact .inl (updated absent ran)
    · exact .inl (updated absent ran)
  | recordUnpublishedFailure status code message artifacts now =>
    obtain ⟨_, _, finished, ended, inserting⟩ := Job.recordUnpublishedFailure_cases ran
    exact .inl ((Job.insertArtifacts_frame inserting).2.trans (updated absent ended))

/-- The stage row of a job appears with both stages queued, for a live job that was asked for an SVG. -/
theorem JobAction.stages_of_none {action : JobAction} (ran : action.run maxOutputBytes job = some next)
    (absent : job.stages = none) :
    next.stages = none ∨ next.row = job.row ∧ .svg ∈ job.row.outputs ∧
      (job.row.status = .validating ∨ job.row.status = .running) ∧
      ∃ rendererImage, next.stages = some (StageRow.initial job.row rendererImage) := by
  cases action with
  | worker fence operation => exact WorkerOperation.stages_of_none ran absent
  | uploadStarted | uploadFinished | uploadFailed | expireReservation | cancel | markDeleting | claimNext
  | claimDeletion | failDeletion =>
    refine .inl ?_
    rw [Job.updateStatus_stages ran, absent]
    rfl
  | requeueSvg input =>
    obtain ⟨_, present, _⟩ := Job.requeueSvg_cases ran
    simp [absent] at present
  | attachProjectRevision | blockAdmission | clearAdmission | claimExpiredLease =>
    exact .inl ((Job.updateColumns_frame ran).1.trans absent)
  | finishDeletion now =>
    obtain ⟨deleted, updated, rfl⟩ := Option.map_eq_some_iff.mp ran
    refine .inl ?_
    change deleted.stages = none
    rw [Job.updateStatus_stages updated, absent]
    rfl

end LatexRenderer
