import Mathlib.Data.Option.Basic
import LatexRenderer.Model.Jobs.Processor

/-! # What the job statements and transactions change

The frame of each kind of statement (a job update runs the triggers and leaves the artifacts alone, a
stage update and an artifact insert leave the job row alone), and for each transaction of the worker
what it did when it committed. Later proofs use these and do not unfold the transactions.
-/

namespace LatexRenderer

section Frames

variable {job next : Job}

theorem Job.updateStatus_row {update : JobRow → Option JobRow}
    (updated : job.updateStatus update = some next) : update job.row = some next.row := by
  obtain ⟨row, found, rfl⟩ := Option.map_eq_some_iff.mp updated
  exact found

theorem Job.updateStatus_artifacts {update : JobRow → Option JobRow}
    (updated : job.updateStatus update = some next) : next.artifacts = job.artifacts := by
  obtain ⟨row, _, rfl⟩ := Option.map_eq_some_iff.mp updated
  rfl

theorem Job.updateStatus_stages {update : JobRow → Option JobRow}
    (updated : job.updateStatus update = some next) :
    next.stages = job.stages.map fun stage =>
      (stage.terminalTrigger next.row).recoverTrigger job.row next.row := by
  obtain ⟨row, _, rfl⟩ := Option.map_eq_some_iff.mp updated
  rfl

/-- A job update whose row update succeeds commits. -/
theorem Job.updateStatus_of_row (job : Job) (update : JobRow → Option JobRow) {row : JobRow}
    (found : update job.row = some row) : ∃ next, job.updateStatus update = some next ∧ next.row = row :=
  ⟨_, by rw [updateStatus, found, Option.map_some], rfl⟩

theorem Job.updateColumns_of_row (job : Job) (update : JobRow → Option JobRow) {row : JobRow}
    (found : update job.row = some row) : ∃ next, job.updateColumns update = some next ∧ next.row = row :=
  ⟨_, by rw [updateColumns, found, Option.map_some], rfl⟩

theorem Job.updateColumns_row {update : JobRow → Option JobRow}
    (updated : job.updateColumns update = some next) : update job.row = some next.row := by
  obtain ⟨row, found, rfl⟩ := Option.map_eq_some_iff.mp updated
  exact found

theorem Job.updateColumns_frame {update : JobRow → Option JobRow}
    (updated : job.updateColumns update = some next) :
    next.stages = job.stages ∧ next.artifacts = job.artifacts := by
  obtain ⟨row, _, rfl⟩ := Option.map_eq_some_iff.mp updated
  exact ⟨rfl, rfl⟩

/-- A stage statement found the stage row and changed nothing else. -/
theorem Job.updateStage_eq_some (update : JobRow → StageRow → Option StageRow)
    (updated : job.updateStage update = some next) :
    ∃ old new, job.stages = some old ∧ update job.row old = some new ∧
      next = { job with stages := some new } := by
  obtain ⟨new, found, rfl⟩ := Option.map_eq_some_iff.mp updated
  obtain ⟨old, present, changed⟩ := Option.bind_eq_some_iff.mp found
  exact ⟨old, new, present, changed, rfl⟩

theorem Job.insertArtifact_frame {artifact : ArtifactRow}
    (inserted : job.insertArtifact artifact = some next) :
    next.row = job.row ∧ next.stages = job.stages := by
  unfold insertArtifact at inserted
  split at inserted
  · cases inserted
  · cases inserted
    exact ⟨rfl, rfl⟩

theorem Job.publishStage_frame {artifact : ArtifactRow}
    (published : job.publishStage artifact = some next) :
    next.row = job.row ∧ next.stages = job.stages := by
  unfold publishStage at published
  split at published
  · cases published
    exact ⟨rfl, rfl⟩
  · exact insertArtifact_frame published

/-- A loop of row inserts leaves the job row and its stages alone. -/
private theorem foldlM_frame {insert : Job → ArtifactRow → Option Job}
    (frame : ∀ {a b : Job} {artifact}, insert a artifact = some b → b.row = a.row ∧ b.stages = a.stages)
    {rows : List ArtifactRow} (inserted : rows.foldlM insert job = some next) :
    next.row = job.row ∧ next.stages = job.stages := by
  induction rows generalizing job with
  | nil =>
    cases inserted
    exact ⟨rfl, rfl⟩
  | cons artifact rest ih =>
    obtain ⟨mid, first, others⟩ := Option.bind_eq_some_iff.mp inserted
    have before := frame first
    have after := ih others
    exact ⟨after.1.trans before.1, after.2.trans before.2⟩

theorem Job.insertArtifacts_frame {rows : List ArtifactRow}
    (inserted : job.insertArtifacts rows = some next) :
    next.row = job.row ∧ next.stages = job.stages :=
  foldlM_frame insertArtifact_frame inserted

theorem Job.publishArtifacts_frame {rows : List ArtifactRow}
    (published : job.publishArtifacts rows = some next) :
    next.row = job.row ∧ next.stages = job.stages :=
  foldlM_frame publishStage_frame published

end Frames

/-- `transitionOwned` needs the fence and one of its source statuses. -/
theorem JobRow.transitionOwned_guard {row next : JobRow} {fence : Fence} {source : List JobStatus} {target : JobStatus}
    {now : Timestamp} {updates : WorkerUpdates}
    (updated : row.transitionOwned fence source target now updates = some next) :
    row.ownedBy fence ∧ row.status ∈ source := by
  simp only [transitionOwned, Option.ite_none_right_eq_some] at updated
  exact updated.1

section Transactions

variable {maxOutputBytes : Nat} {fence : Fence} {job next : Job} {now : Timestamp}

/-- The stage row is inserted for a held claim and nothing else changes. -/
theorem Job.prepareStages_frame {rendererImage : String}
    (prepared : job.prepareStages fence rendererImage = some next) :
    job.row.ownedBy fence ∧ next.row = job.row ∧ next.artifacts = job.artifacts := by
  simp only [prepareStages, initializeStages, Option.bind_eq_bind, Option.bind_eq_some_iff,
    Option.ite_none_right_eq_some, Option.some.injEq] at prepared
  obtain ⟨_, _, ⟨held, _⟩, rfl⟩ := prepared
  exact ⟨held, rfl, rfl⟩

theorem StageRow.startPdf_owned {row : JobRow} {old new : StageRow}
    (started : old.startPdf fence row = some new) : old.owned fence row := by
  simp only [startPdf, Option.ite_none_right_eq_some] at started
  exact started.1.2

theorem StageRow.startSvg_owned {row : JobRow} {old new : StageRow}
    (started : old.startSvg fence row = some new) : old.owned fence row := by
  simp only [startSvg, Option.ite_none_right_eq_some] at started
  exact started.1.2.1

theorem StageRow.completePdf_owned {input : StageRow.PdfInput} {row : JobRow} {old new : StageRow}
    (completed : old.completePdf fence input row = some new) : old.owned fence row := by
  simp only [completePdf, Option.ite_none_right_eq_some] at completed
  exact completed.1.2

theorem StageRow.completeSvg_owned {input : StageRow.SvgInput} {row : JobRow} {old new : StageRow}
    (completed : old.completeSvg fence input row = some new) : old.owned fence row := by
  simp only [completeSvg, Option.ite_none_right_eq_some] at completed
  exact completed.1.2

/-- What a committed finalization did: it marked the job canceled, or it published every artifact and
then ended the running job. -/
theorem Job.finalize_cases {run : Execution} {artifacts : List ValidatedArtifact}
    (committed : job.finalize maxOutputBytes fence run artifacts now = some next) :
    .svg ∉ job.row.outputs ∧ totalSize artifacts ≤ maxOutputBytes ∧
      (artifacts.map (·.path)).Nodup ∧ job.row.ownedBy fence ∧
      (((job.row.cancelRequestedAt.isSome ∨ job.row.status = .canceled) ∧
          job.updateStatus (·.markCanceled fence now (some (totalSize artifacts))) = some next) ∨
        ((job.row.cancelRequestedAt = none ∧ job.row.status ≠ .canceled) ∧
          ∃ inserted, job.insertArtifacts (artifacts.map (·.row fence.generation now)) = some inserted ∧
            inserted.endRender fence (classifyRenderResult run) run.exitCode (totalSize artifacts)
              (some now) now = some next)) := by
  simp only [finalize, validateArtifacts, Option.bind_eq_bind, Option.bind_eq_some_iff,
    Option.guard_eq_some', Option.ite_none_right_eq_some, Option.some.injEq, exists_const] at committed
  obtain ⟨unstaged, _, ⟨⟨bounded, distinct⟩, rfl⟩, held, committed⟩ := committed
  refine ⟨unstaged, bounded, distinct, held, ?_⟩
  split at committed
  next canceled => exact .inl ⟨canceled, committed⟩
  next going =>
    rw [not_or, Option.not_isSome_iff_eq_none] at going
    exact .inr ⟨going, Option.bind_eq_some_iff.mp committed⟩

/-- What a committed PDF failure did. -/
theorem Job.commitPdfFailure_cases {run : Execution} {artifacts : List ValidatedArtifact}
    (committed : job.commitPdfFailure maxOutputBytes fence run artifacts now = some next) :
    (classifyRenderResult run).status ≠ .succeeded ∧ totalSize artifacts ≤ maxOutputBytes ∧
      (artifacts.map (·.path)).Nodup ∧ job.row.ownedBy fence ∧
      ((job.row.cancelRequestedAt.isSome ∧ job.markCanceled fence now = some next) ∨
        (job.row.cancelRequestedAt = none ∧
          ∃ generation inserted, storageGeneration? fence.generation false = some generation ∧
            job.publishArtifacts (artifacts.map (·.row generation now)) = some inserted ∧
            inserted.endRender fence (classifyRenderResult run) run.exitCode (totalSize artifacts)
              none now = some next)) := by
  simp only [commitPdfFailure, validateArtifacts, Option.bind_eq_bind, Option.bind_eq_some_iff,
    Option.guard_eq_some', Option.ite_none_right_eq_some, Option.some.injEq, exists_const] at committed
  obtain ⟨unsuccessful, _, ⟨⟨bounded, distinct⟩, rfl⟩, generation, numbered, held, committed⟩ := committed
  refine ⟨unsuccessful, bounded, distinct, held, ?_⟩
  split at committed
  next canceled => exact .inl ⟨canceled, committed⟩
  next going =>
    obtain ⟨inserted, publishing, ended⟩ := Option.bind_eq_some_iff.mp committed
    exact .inr ⟨Option.not_isSome_iff_eq_none.mp going, generation, inserted, numbered, publishing, ended⟩

/-- What a committed PDF stage did: the checkpoint was completed, its artifacts published, and the
running job got its output size. -/
theorem Job.commitPdf_cases {pdfSha256 : Sha256} {synctex : SynctexDigest}
    {artifacts : List ValidatedArtifact}
    (committed : job.commitPdf maxOutputBytes fence pdfSha256 synctex artifacts now = some next) :
    totalSize artifacts + synctex.bytes ≤ maxOutputBytes ∧ (artifacts.map (·.path)).Nodup ∧
      ∃ generation completed inserted, storageGeneration? fence.generation false = some generation ∧
        job.updateStage (fun row stage => stage.completePdf fence {
          storageGeneration := generation
          sha256 := pdfSha256
          synctexSha256 := synctex.sha256
          synctexBytes := synctex.bytes
          completedAt := now } row) = some completed ∧
        completed.publishArtifacts (artifacts.map (·.row generation now)) = some inserted ∧
        inserted.updateStatus (·.transitionOwned fence [.running] .running now
          { outputSize := some (totalSize artifacts + synctex.bytes) }) = some next := by
  simp only [commitPdf, validateArtifacts, Option.bind_eq_bind, Option.bind_eq_some_iff,
    Option.guard_eq_some', Option.ite_none_right_eq_some, Option.some.injEq, exists_const] at committed
  obtain ⟨_, ⟨⟨_, distinct⟩, rfl⟩, bounded, _, _, _, generation, numbered, completed, completing, inserted,
    publishing, kept⟩ := committed
  exact ⟨bounded, distinct, generation, completed, inserted, numbered, completing, publishing, kept⟩

/-- What a committed SVG stage did: the stage was completed, its artifacts published, and the running
job ended with the stage's result. -/
theorem Job.commitSvg_cases {run : Except ProcessError Execution} {artifacts : List ValidatedArtifact}
    {previousBytes : Nat}
    (committed : job.commitSvg maxOutputBytes fence run artifacts previousBytes now = some next) :
    previousBytes + totalSize artifacts ≤ maxOutputBytes ∧ (artifacts.map (·.path)).Nodup ∧
      ∃ generation completed inserted, storageGeneration? fence.generation true = some generation ∧
        job.updateStage (fun row stage => stage.completeSvg fence {
          storageGeneration := generation
          status := (svgResult run).1.status.stage
          errorCode := (svgResult run).1.errorCode
          errorMessage := (svgResult run).1.errorMessage
          completedAt := now } row) = some completed ∧
        completed.publishArtifacts (artifacts.map (·.row generation now)) = some inserted ∧
        inserted.endRender fence (svgResult run).1 (svgResult run).2
          (previousBytes + totalSize artifacts) (some now) now = some next := by
  simp only [commitSvg, validateArtifacts, Option.bind_eq_bind, Option.bind_eq_some_iff,
    Option.guard_eq_some', Option.ite_none_right_eq_some, Option.some.injEq, exists_const] at committed
  obtain ⟨_, ⟨⟨_, distinct⟩, rfl⟩, _, bounded, generation, numbered, completed, completing, inserted,
    publishing, ended⟩ := committed
  exact ⟨bounded, distinct, generation, completed, inserted, numbered, completing, publishing, ended⟩

/-- What a committed failure record did: the job ended, then its diagnostics were published. -/
theorem Job.recordUnpublishedFailure_cases {status : FailureStatus} {errorCode message : String}
    {artifacts : List ValidatedArtifact}
    (recorded : job.recordUnpublishedFailure maxOutputBytes fence status errorCode message artifacts now
      = some next) :
    totalSize artifacts ≤ maxOutputBytes ∧ (artifacts.map (·.path)).Nodup ∧
      ∃ finished, job.updateStatus
          (·.finishFailure fence status errorCode message now (totalSize artifacts)) = some finished ∧
        finished.insertArtifacts (artifacts.map (·.row fence.generation now)) = some next := by
  simp only [recordUnpublishedFailure, validateArtifacts, Option.bind_eq_bind, Option.bind_eq_some_iff,
    Option.ite_none_right_eq_some, Option.some.injEq] at recorded
  obtain ⟨_, ⟨⟨bounded, distinct⟩, rfl⟩, finished, ended, inserting⟩ := recorded
  exact ⟨bounded, distinct, finished, ended, inserting⟩

/-- What a committed SVG requeue did and demanded. -/
theorem Job.requeueSvg_cases {input : RequeueInput} (requeued : job.requeueSvg input = some next) :
    ∃ stage, job.stages = some stage ∧
      (job.row.status = .failed ∨ job.row.status = .timeout ∨ job.row.status = .canceled) ∧
      job.row.leaseOwner = none ∧ job.canRequeueSvg input.cutoff stage ∧
      next = { job with row := requeueRow input job.row, stages := some stage.requeue } := by
  simp only [requeueSvg, Option.bind_eq_bind, Option.bind_eq_some_iff, Option.guard_eq_some',
    exists_const] at requeued
  obtain ⟨stage, present, ⟨_, ended, free, ready, _⟩, queued, updated, same⟩ := requeued
  simp only [List.mem_cons, List.not_mem_nil, or_false] at ended
  refine ⟨stage, present, ended, free, ready, ?_⟩
  have found := updateStatus_row updated
  have row : queued.row = requeueRow input job.row := (Option.some.inj found).symm
  have stages := updateStatus_stages updated
  have artifacts := updateStatus_artifacts updated
  have silent : (stage.terminalTrigger queued.row).recoverTrigger job.row queued.row = stage := by
    rw [row]
    rcases ended with status | status | status <;>
      simp [StageRow.terminalTrigger, StageRow.recoverTrigger, requeueRow, StageStatus.ofJob?, status]
  rw [present, Option.map_some, silent] at stages
  rw [← Option.some.inj same, row, stages, artifacts]
  rfl

end Transactions

end LatexRenderer
