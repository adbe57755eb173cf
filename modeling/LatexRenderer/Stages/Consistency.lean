import LatexRenderer.Stages.Step

/-! # The output stages of a job are consistent

The SVG stage only ever runs over a published PDF, an SVG stage is skipped where the PDF was not
published, a published PDF is never replaced, and the stages end with their job.
-/

namespace LatexRenderer

open Machine

/-- What a published PDF fixes for good. -/
structure PdfCheckpoint where
  generation : Option Nat
  sha256 : Option Sha256
  synctexSha256 : Option Sha256
  synctexBytes : Nat
  completedAt : Option Timestamp

/-- The checkpoint of a stage row whose PDF is published. -/
def StageRow.checkpoint? (stage : StageRow) : Option PdfCheckpoint :=
  if stage.pdfStatus = .succeeded then
    some ⟨stage.pdfGeneration, stage.pdfSha256, stage.synctexSha256, stage.synctexBytes,
      stage.pdfCompletedAt⟩
  else none

/-- The order of the two stages. -/
structure StageRow.Ordered (stage : StageRow) : Prop where
  pdfFirst : stage.svgStatus ∈ [.running, .succeeded, .failed, .timeout, .canceled] →
    stage.pdfStatus = .succeeded
  skipped : stage.svgStatus = .skipped → stage.pdfStatus ≠ .succeeded ∧ stage.pdfStatus.isOpen = false

/-- A stage row that agrees with its job. -/
structure StageRow.Consistent (row : JobRow) (stage : StageRow) : Prop where
  asked : .svg ∈ row.outputs
  checks : stage.Checks
  ordered : stage.Ordered
  ended : row.status ∈ [.failed, .timeout, .canceled, .rejected] →
    stage.pdfStatus.isOpen = false ∧ stage.svgStatus.isOpen = false
  succeeded : row.lifecycle.Succeeded → stage.pdfStatus = .succeeded ∧ stage.svgStatus = .succeeded

section Triggers

variable {before after : JobRow} {stage : StageRow} {outcome : StageStatus}

/-- The three outcomes the terminal trigger writes. -/
theorem StageStatus.ofJob?_outcome {status : JobStatus} (fires : StageStatus.ofJob? status = some outcome) :
    outcome = .failed ∨ outcome = .timeout ∨ outcome = .canceled := by
  cases status <;> simp [StageStatus.ofJob?] at fires <;> simp [← fires]

theorem StageStatus.ofJob?_isSome {status : JobStatus} :
    (StageStatus.ofJob? status).isSome ↔ status ∈ [.failed, .timeout, .canceled, .rejected] := by
  cases status <;> simp [StageStatus.ofJob?]

/-- What the triggers did: they closed the open stages, they put running stages back, or they did not
fire. -/
theorem StageRow.triggered_cases (before after : JobRow) (stage : StageRow) :
    (∃ outcome, StageStatus.ofJob? after.status = some outcome ∧
      stage.triggered before after = (stage.closeSvg outcome after).closePdf outcome after) ∨
    (StageStatus.ofJob? after.status = none ∧ stage.triggered before after = { stage with
      pdfStatus := stage.pdfStatus.recovered, svgStatus := stage.svgStatus.recovered }) ∨
    (StageStatus.ofJob? after.status = none ∧ stage.triggered before after = stage) := by
  cases fires : StageStatus.ofJob? after.status with
  | some outcome =>
    have unqueued : after.status ≠ .queued := fun queued => by simp [queued, StageStatus.ofJob?] at fires
    refine .inl ⟨outcome, rfl, ?_⟩
    simp [triggered, terminalTrigger, recoverTrigger, fires, unqueued]
  | none =>
    by_cases recovers : after.status = .queued ∧ before.status ∈ [.validating, .running]
    · exact .inr (.inl ⟨rfl, by rw [triggered, terminalTrigger, fires, recoverTrigger, if_pos recovers]⟩)
    · exact .inr (.inr ⟨rfl, by rw [triggered, terminalTrigger, fires, recoverTrigger, if_neg recovers]⟩)

@[simp] theorem StageRow.closeSvg_pdfStatus :
    (stage.closeSvg outcome after).pdfStatus = stage.pdfStatus := by
  unfold closeSvg
  split <;> rfl

@[simp] theorem StageRow.closePdf_svgStatus :
    (stage.closePdf outcome after).svgStatus = stage.svgStatus := by
  unfold closePdf
  split <;> rfl

theorem StageRow.closeSvg_checkpoint? :
    (stage.closeSvg outcome after).checkpoint? = stage.checkpoint? := by
  unfold closeSvg
  split <;> rfl

/-- Closing the PDF stage leaves a published PDF alone. -/
theorem StageRow.closePdf_checkpoint? (published : stage.pdfStatus = .succeeded) :
    stage.closePdf outcome after = stage := by
  simp [closePdf, published, StageStatus.isOpen]

theorem StageRow.closeSvg_open (isOpen : stage.svgStatus.isOpen = true) :
    (stage.closeSvg outcome after).svgStatus =
      if stage.pdfStatus ≠ .succeeded then .skipped else outcome := by
  rw [closeSvg, if_pos isOpen]

theorem StageRow.closeSvg_closed (closed : stage.svgStatus.isOpen = false) :
    stage.closeSvg outcome after = stage := by
  simp [closeSvg, closed]

/-- Both stages are closed when the terminal trigger has run. -/
theorem StageRow.closed_of_close
    (ended : outcome = .failed ∨ outcome = .timeout ∨ outcome = .canceled) :
    ((stage.closeSvg outcome after).closePdf outcome after).pdfStatus.isOpen = false ∧
      ((stage.closeSvg outcome after).closePdf outcome after).svgStatus.isOpen = false := by
  have closes : outcome.isOpen = false := by rcases ended with rfl | rfl | rfl <;> rfl
  constructor
  · cases pdf : stage.pdfStatus.isOpen <;> simp [closePdf, pdf, closes]
  · rw [closePdf_svgStatus]
    cases svg : stage.svgStatus.isOpen with
    | false => rw [closeSvg_closed svg, svg]
    | true =>
      rw [closeSvg_open svg]
      split
      · rfl
      · exact closes

/-- The terminal trigger keeps the order of the stages. -/
theorem StageRow.Ordered.close (ordered : stage.Ordered)
    (ended : outcome = .failed ∨ outcome = .timeout ∨ outcome = .canceled) :
    ((stage.closeSvg outcome after).closePdf outcome after).Ordered := by
  have closed : ((stage.closeSvg outcome after).closePdf outcome after).pdfStatus.isOpen = false ∧
      ((stage.closeSvg outcome after).closePdf outcome after).svgStatus.isOpen = false :=
    closed_of_close ended
  by_cases published : stage.pdfStatus = .succeeded
  · rw [closePdf_checkpoint? (by simpa using published)] at closed ⊢
    refine ⟨fun _ => by simpa using published, fun skipped => ?_⟩
    cases svg : stage.svgStatus.isOpen with
    | false =>
      rw [closeSvg_closed svg] at skipped
      exact absurd published (ordered.skipped skipped).1
    | true =>
      rw [closeSvg_open svg, if_neg (by simp [published])] at skipped
      simp [skipped] at ended
  · have unpublished : ((stage.closeSvg outcome after).closePdf outcome after).pdfStatus ≠ .succeeded := by
      unfold closePdf
      split
      · rcases ended with rfl | rfl | rfl <;> simp
      · simpa using published
    refine ⟨fun began => ?_, fun _ => ⟨unpublished, closed.1⟩⟩
    rw [closePdf_svgStatus] at began
    cases svg : stage.svgStatus.isOpen with
    | false =>
      rw [closeSvg_closed svg] at began
      exact absurd (ordered.pdfFirst began) published
    | true => simp [closeSvg_open svg, published] at began

/-- The first statement of the terminal trigger passes the checks of the table. -/
theorem StageRow.Checks.closeSvg (checks : stage.Checks)
    (ended : outcome = .failed ∨ outcome = .timeout ∨ outcome = .canceled) :
    (stage.closeSvg outcome after).Checks := by
  unfold StageRow.closeSvg
  split
  · refine { checks with svgSucceeded := fun success => ?_ }
    rcases ended with rfl | rfl | rfl <;> simp at success <;> split at success <;> cases success
  · exact checks

theorem StageRow.Checks.closePdf (checks : stage.Checks)
    (ended : outcome = .failed ∨ outcome = .timeout ∨ outcome = .canceled) :
    (stage.closePdf outcome after).Checks := by
  unfold StageRow.closePdf
  split
  · refine { checks with pdfStatus := ?_, pdfSucceeded := fun success => ?_ }
    · rcases ended with rfl | rfl | rfl <;> simp
    · rcases ended with rfl | rfl | rfl <;> cases success
  · exact checks

theorem StageStatus.recovered_eq_iff {status target : StageStatus} (settled : target.isOpen = false) :
    status.recovered = target ↔ status = target := by
  cases status <;> cases target <;> simp [recovered, isOpen] at settled ⊢

/-- A recovery puts only running stages back and passes the checks. -/
theorem StageRow.Checks.recover (checks : stage.Checks) : StageRow.Checks { stage with
    pdfStatus := stage.pdfStatus.recovered, svgStatus := stage.svgStatus.recovered } where
  sourceSha256 := checks.sourceSha256
  pdfStatus := fun skipped =>
    checks.pdfStatus ((StageStatus.recovered_eq_iff rfl).mp skipped)
  pdfGeneration := checks.pdfGeneration
  svgGeneration := checks.svgGeneration
  pdfSha256 := checks.pdfSha256
  synctexSha256 := checks.synctexSha256
  svgAttempt := checks.svgAttempt
  pdfSucceeded := fun success => checks.pdfSucceeded ((StageStatus.recovered_eq_iff rfl).mp success)
  svgSucceeded := fun success => checks.svgSucceeded ((StageStatus.recovered_eq_iff rfl).mp success)

theorem StageRow.Ordered.recover (ordered : stage.Ordered) : StageRow.Ordered { stage with
    pdfStatus := stage.pdfStatus.recovered, svgStatus := stage.svgStatus.recovered } where
  pdfFirst := fun began => by
    have before : stage.svgStatus ∈ [.running, .succeeded, .failed, .timeout, .canceled] := by
      cases svg : stage.svgStatus <;> simp [svg, StageStatus.recovered] at began ⊢
    exact (StageStatus.recovered_eq_iff rfl).mpr (ordered.pdfFirst before)
  skipped := fun skipped => by
    obtain ⟨unpublished, closed⟩ := ordered.skipped ((StageStatus.recovered_eq_iff rfl).mp skipped)
    cases pdf : stage.pdfStatus <;> simp [pdf, StageStatus.recovered, StageStatus.isOpen] at unpublished closed ⊢

/-- The triggers keep everything but the agreement with the job, which they restore. -/
theorem StageRow.Consistent.triggered (consistent : stage.Consistent before)
    (outputs : after.outputs = before.outputs)
    (success : after.lifecycle.Succeeded → before.lifecycle.Succeeded) :
    (stage.triggered before after).Consistent after := by
  have asked : .svg ∈ after.outputs := by
    rw [outputs]
    exact consistent.asked
  have published := fun succeeds => consistent.succeeded (success succeeds)
  rcases triggered_cases before after stage with ⟨outcome, fires, closed⟩ | ⟨silent, recovered⟩ | ⟨silent, same⟩
  · have ended := StageStatus.ofJob?_outcome fires
    rw [closed]
    refine ⟨asked, (consistent.checks.closeSvg ended).closePdf ended, consistent.ordered.close ended,
      fun _ => closed_of_close ended, fun succeeds => ?_⟩
    obtain ⟨pdf, svg⟩ := published succeeds
    rw [closeSvg_closed (by simp [svg, StageStatus.isOpen]), closePdf_checkpoint? pdf]
    exact ⟨pdf, svg⟩
  · have unended : after.status ∉ [.failed, .timeout, .canceled, .rejected] := by
      rw [← StageStatus.ofJob?_isSome, silent]
      simp
    rw [recovered]
    refine ⟨asked, consistent.checks.recover, consistent.ordered.recover, (absurd · unended),
      fun succeeds => ?_⟩
    exact ⟨(StageStatus.recovered_eq_iff rfl).mpr (published succeeds).1,
      (StageStatus.recovered_eq_iff rfl).mpr (published succeeds).2⟩
  · have unended : after.status ∉ [.failed, .timeout, .canceled, .rejected] := by
      rw [← StageStatus.ofJob?_isSome, silent]
      simp
    rw [same]
    exact ⟨asked, consistent.checks, consistent.ordered, (absurd · unended), published⟩

/-- The triggers keep the checkpoint of a published PDF. -/
theorem StageRow.triggered_checkpoint? {checkpoint : PdfCheckpoint}
    (fixed : stage.checkpoint? = some checkpoint) :
    (stage.triggered before after).checkpoint? = some checkpoint := by
  have published : stage.pdfStatus = .succeeded := by
    simp only [checkpoint?, Option.ite_none_right_eq_some] at fixed
    exact fixed.1
  rcases triggered_cases before after stage with ⟨outcome, _, closed⟩ | ⟨_, recovered⟩ | ⟨_, same⟩
  · rw [closed, closePdf_checkpoint? (by simpa using published), closeSvg_checkpoint?, fixed]
  · rw [recovered, ← fixed]
    simp [checkpoint?, published, StageStatus.recovered]
  · rw [same, fixed]

end Triggers

section Steps

variable {before after : JobRow} {stage new : StageRow}

/-- A running job has not succeeded. -/
private theorem running_unsuccessful {row : JobRow} (live : row.lifecycle.LiveUnrendered)
    (running : row.status = .running) : ¬ row.lifecycle.Succeeded := by
  have unrendered : row.renderStatus = none := live (by simp [JobRow.lifecycle, running])
  simp [Lifecycle.Succeeded, JobRow.lifecycle, running, unrendered]

/-- Of a running job only the checks and the order of its stages are left to show. -/
private theorem consistent_of_running {row : JobRow} (live : row.lifecycle.LiveUnrendered)
    (running : row.status = .running) (asked : .svg ∈ row.outputs) (checks : stage.Checks)
    (ordered : stage.Ordered) : stage.Consistent row :=
  ⟨asked, checks, ordered, by simp [running], fun success => absurd success (running_unsuccessful live running)⟩

/-- The SVG stage has not begun while the PDF stage is open. -/
private theorem StageRow.Ordered.svg_queued (ordered : stage.Ordered) (isOpen : stage.pdfStatus.isOpen = true) :
    stage.svgStatus = .queued := by
  have unpublished : stage.pdfStatus ≠ .succeeded := fun published => by
    simp [published, StageStatus.isOpen] at isOpen
  cases svg : stage.svgStatus with
  | queued => rfl
  | skipped => simp [(ordered.skipped svg).2] at isOpen
  | _ => exact absurd (ordered.pdfFirst (by simp [svg])) unpublished

/-- Every step of a staged job keeps its stages consistent. -/
theorem StageStep.consistent (step : StageStep before after stage new)
    (outputs : after.outputs = before.outputs) (live : before.lifecycle.LiveUnrendered)
    (liveAfter : after.lifecycle.LiveUnrendered) (consistent : stage.Consistent before) :
    new.Consistent after := by
  have asked : .svg ∈ after.outputs := by
    rw [outputs]
    exact consistent.asked
  have checks := consistent.checks
  have ordered := consistent.ordered
  cases step with
  | kept status outcome =>
    refine ⟨asked, checks, ordered, ?_, fun success => consistent.succeeded ?_⟩
    · rw [status]
      exact consistent.ended
    · simpa [Lifecycle.Succeeded, JobRow.lifecycle, status, outcome] using success
  | triggered success => exact consistent.triggered outputs success
  | pdfStarted same running queued =>
    have waiting := ordered.svg_queued (by simp [queued, StageStatus.isOpen])
    rw [same]
    refine consistent_of_running live running consistent.asked ?_ ⟨by simp [waiting], by simp [waiting]⟩
    exact { checks with pdfStatus := by simp, pdfSucceeded := by simp }
  | svgStarted same running queued published =>
    rw [same]
    refine consistent_of_running live running consistent.asked ?_ ⟨fun _ => published, by simp⟩
    exact { checks with svgSucceeded := by simp }
  | pdfCompleted _ running _ started input numbered =>
    have waiting := ordered.svg_queued (by simp [started, StageStatus.isOpen])
    refine consistent_of_running liveAfter running asked ?_
      ⟨fun _ => rfl, by simp [StageRow.withPdf, waiting]⟩
    exact { checks with
      pdfStatus := by simp [StageRow.withPdf]
      pdfGeneration := by simpa [StageRow.withPdf] using numbered
      pdfSha256 := by simp
      synctexSha256 := by simp
      pdfSucceeded := by simp [StageRow.withPdf] }
  | svgCompleted running result ended outcome started input status numbered =>
    have published : stage.pdfStatus = .succeeded := ordered.pdfFirst (by simp [started])
    have completed : (stage.withSvg input).Consistent before := by
      refine consistent_of_running live running consistent.asked ?_ ⟨fun _ => published, ?_⟩
      · exact { checks with
          svgGeneration := by simpa [StageRow.withSvg] using numbered
          svgSucceeded := by simp [StageRow.withSvg] }
      · cases result <;> simp [StageRow.withSvg, status, ResultStatus.stage]
    cases result with
    | succeeded =>
      have silent : (stage.withSvg input).triggered before after = stage.withSvg input := by
        simp [StageRow.triggered, StageRow.terminalTrigger, StageRow.recoverTrigger, StageStatus.ofJob?,
          ended, ResultStatus.terminal, TerminalStatus.toJob]
      rw [silent]
      refine ⟨asked, completed.checks, completed.ordered, ?_, fun _ => ⟨published, status⟩⟩
      simp [ended, ResultStatus.terminal, TerminalStatus.toJob]
    | failed | timeout =>
      refine completed.triggered outputs fun success => ?_
      simp [Lifecycle.Succeeded, JobRow.lifecycle, ended, outcome, ResultStatus.terminal,
        TerminalStatus.toJob] at success
  | requeued queued outcome published _ attempts =>
    refine ⟨asked, ?_, ⟨by simp [StageRow.requeue], by simp [StageRow.requeue]⟩, by simp [queued], ?_⟩
    · exact { checks with
        svgGeneration := by simp [StageRow.requeue]
        svgAttempt := ⟨Nat.le_add_left 1 _, attempts⟩
        svgSucceeded := by simp [StageRow.requeue] }
    · simp [Lifecycle.Succeeded, JobRow.lifecycle, queued, outcome]

/-- Every step of a staged job keeps a published PDF. -/
theorem StageStep.checkpoint? (step : StageStep before after stage new) {checkpoint : PdfCheckpoint}
    (fixed : stage.checkpoint? = some checkpoint) : new.checkpoint? = some checkpoint := by
  have published : stage.pdfStatus = .succeeded := by
    simp only [StageRow.checkpoint?, Option.ite_none_right_eq_some] at fixed
    exact fixed.1
  cases step with
  | kept | svgStarted | requeued => exact fixed
  | triggered => exact StageRow.triggered_checkpoint? fixed
  | pdfStarted _ _ queued => simp [queued] at published
  | pdfCompleted _ _ _ started => simp [started] at published
  | svgCompleted => exact StageRow.triggered_checkpoint? fixed

end Steps

/-- The row that `initialize` inserts is consistent with its live job. -/
theorem StageRow.initial_consistent {row : JobRow} (asked : .svg ∈ row.outputs)
    (running : row.status = .validating ∨ row.status = .running)
    (live : row.lifecycle.LiveUnrendered) (rendererImage : String) :
    (StageRow.initial row rendererImage).Consistent row := by
  have unrendered : row.renderStatus = none :=
    live (by rcases running with status | status <;> simp [JobRow.lifecycle, status])
  refine ⟨asked, ?_, ⟨by simp [initial], by simp [initial]⟩, ?_, ?_⟩
  · constructor <;> simp [initial]
  · rcases running with status | status <;> simp [status]
  · rcases running with status | status <;>
      simp [Lifecycle.Succeeded, JobRow.lifecycle, status, unrendered]

variable {maxOutputBytes : Nat} {job : Job} {stage : StageRow}

theorem consistent_of_reachable (reached : Reachable (jobMachine maxOutputBytes) job) :
    ∀ stage, job.stages = some stage → stage.Consistent job.row := by
  refine reached.induction (P := fun job => ∀ stage, job.stages = some stage → stage.Consistent job.row)
    ?_ ?_
  · rintro _ ⟨⟩ stage present <;> cases present
  · intro before action after reachedBefore ran held stage present
    have live := liveUnrendered_of_reachable reachedBefore
    have liveAfter := liveUnrendered_of_reachable (reachedBefore.step ran)
    cases old : before.stages with
    | none =>
      rcases JobAction.stages_of_none ran old with absent | ⟨row, asked, running, image, inserted⟩
      · simp [absent] at present
      · rw [inserted, Option.some.injEq] at present
        rw [row, ← present]
        exact StageRow.initial_consistent asked running live image
    | some previous =>
      have consistent := held previous old
      obtain ⟨new, found, step⟩ := JobAction.stageStep ran old consistent.asked
      obtain rfl := Option.some.inj (found.symm.trans present)
      have outputs : after.row.outputs = before.row.outputs :=
        congrArg JobIdentity.outputs (JobAction.run_identity ran)
      exact step.consistent outputs live liveAfter consistent

/-- A published PDF keeps its generation, digests and completion time in every later state. -/
theorem checkpoint_is_fixed {later : Job} {actions : List JobAction} {checkpoint : PdfCheckpoint}
    (reached : Reachable (jobMachine maxOutputBytes) job)
    (run : Run (jobMachine maxOutputBytes) job actions later)
    (fixed : job.stages.bind StageRow.checkpoint? = some checkpoint) :
    later.stages.bind StageRow.checkpoint? = some checkpoint := by
  refine run.stable (P := fun job => job.stages.bind StageRow.checkpoint? = some checkpoint) reached ?_ fixed
  intro before action after reachedBefore ran held
  obtain ⟨stage, present, published⟩ := Option.bind_eq_some_iff.mp held
  have consistent := consistent_of_reachable reachedBefore stage present
  obtain ⟨new, found, step⟩ := JobAction.stageStep ran present consistent.asked
  rw [found, Option.bind_some]
  exact step.checkpoint? published

/-- In every reachable state of a staged job its stages are consistent, the statements of the terminal
trigger meet the checks of the table, and a published PDF is fixed for every run from there. -/
theorem output_stages_consistent (reached : Reachable (jobMachine maxOutputBytes) job)
    (staged : job.stages = some stage) :
    stage.Consistent job.row ∧
      (∀ row outcome, StageStatus.ofJob? row.status = some outcome → (stage.closeSvg outcome row).Checks) ∧
      ∀ actions later checkpoint, Run (jobMachine maxOutputBytes) job actions later →
        stage.checkpoint? = some checkpoint →
        later.stages.bind StageRow.checkpoint? = some checkpoint := by
  have consistent := consistent_of_reachable reached stage staged
  refine ⟨consistent, fun row outcome fires => ?_, fun actions later checkpoint run fixed => ?_⟩
  · exact consistent.checks.closeSvg (StageStatus.ofJob?_outcome fires)
  · exact checkpoint_is_fixed reached run (by rw [staged, Option.bind_some, fixed])

/-- The staged job whose SVG stage failed after its PDF was published. -/
theorem output_stages_consistent_svgFailed :
    ∃ (job : Job) (stage : StageRow), job.stages = some stage ∧ stage.pdfStatus = .succeeded ∧
      stage.svgStatus = .failed ∧ stage.Consistent job.row := by
  obtain ⟨job, run, check⟩ := jobMachine_run 10 { row := insertReserved exampleStagedTicket } svgFailed
    (fun job => job.stages.any fun stage => stage.pdfStatus == .succeeded && stage.svgStatus == .failed)
    (by decide)
  obtain ⟨stage, present, statuses⟩ := (Option.any_eq_true ..).mp check
  simp only [Bool.and_eq_true, beq_iff_eq] at statuses
  exact ⟨job, stage, present, statuses.1, statuses.2,
    (output_stages_consistent ⟨_, _, .reserved exampleStagedTicket, run⟩ present).1⟩

end LatexRenderer
