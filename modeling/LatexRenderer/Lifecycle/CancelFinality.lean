import LatexRenderer.Lifecycle.Activity

/-! # A successful cancel is final

After a cancel the job does not succeed, is not queued again and gets no further artifacts until its
SVG stage is requeued. Two updates do not look at the cancel request and break this when they meet one:
`recoverQueued`, which queues the job of a dead worker again, and the branch of `recordFailure` for jobs
without a published PDF, which publishes its diagnostics.
-/

namespace LatexRenderer

open Machine

namespace Lifecycle

/-- The job was canceled and stays out of the waiting statuses and of success. -/
structure Canceled (s : Lifecycle) : Prop where
  requested : s.cancelRequested = true
  status : s.status ≠ .succeeded ∧ s.status ∉ [.reserved, .uploading, .queued, .validating]
  outcome : s.renderStatus ≠ some .succeeded

/-- Recovery queues no job whose cancel was requested. -/
def RecoversUncanceled (s : Lifecycle) (event : LifecycleEvent) : Prop :=
  ∀ fence, event = .recoverQueued fence → s.cancelRequested = false

/-- A cancel that changes the job cancels it for good. -/
theorem Step.cancel_canceled {s t : Lifecycle} (step : Step s .cancel t) (inv : s.LiveUnrendered) :
    t.Canceled := by
  cases step with
  | cancelAtOnce => exact ⟨rfl, by simp, by simp⟩
  | cancelRunning running =>
    exact ⟨rfl, by simp [running], by simp [inv (by simp [running])]⟩

/-- Every later step but an SVG requeue, and but a recovery that meets the cancel request, leaves the
job canceled. -/
theorem Step.canceled {s t : Lifecycle} {event : LifecycleEvent} (step : Step s event t)
    (noRetry : event ≠ .requeueSvg) (recovers : RecoversUncanceled s event) (inv : s.Canceled) :
    t.Canceled := by
  have ⟨requested, ⟨unsuccessful, settled⟩, outcome⟩ := inv
  cases step with
  | housekeeping | work => exact inv
  | uploadStarted waiting => simp [waiting] at settled
  | uploadFinished uploading => simp [uploading] at settled
  | uploadFailed uploading => simp [uploading] at settled
  | expire waiting => rcases waiting with status | status <;> simp [status] at settled
  | cancelAtOnce waiting => exact absurd waiting settled
  | cancelRunning => exact ⟨rfl, inv.status, outcome⟩
  | @delete terminal ended =>
    refine ⟨requested, by simp, fun success => unsuccessful ?_⟩
    rw [ended, Option.some.inj success]
    rfl
  | requeueSvg => exact absurd rfl noRetry
  | claim queued => simp [queued] at settled
  | reclaim => exact ⟨requested, inv.status, outcome⟩
  | renew => exact ⟨requested, inv.status, outcome⟩
  | start _ validating => simp [validating] at settled
  | finish _ _ terminal _ success =>
    have other : terminal ≠ .succeeded := fun succeeded => by
      simp [requested] at success
      exact success succeeded
    exact ⟨requested, by cases terminal <;> simp [TerminalStatus.toJob] at other ⊢, by simpa using other⟩
  | @recoverQueued fence => simp [recovers fence rfl] at requested
  | cleanupClaim =>
    refine ⟨requested, by simp, ?_⟩
    cases render : s.renderStatus with
    | some terminal => simpa [render] using outcome
    | none =>
      intro success
      have ended : s.status.terminal? = some .succeeded := by simpa [render] using success
      exact unsuccessful (JobStatus.terminal?_eq_some.mp ended)
  | cleanupFinish => exact ⟨requested, by simp, outcome⟩
  | cleanupFail claimed =>
    refine ⟨requested, ?_, outcome⟩
    cases render : s.renderStatus with
    | none => simp [claimed.1]
    | some terminal =>
      rw [render] at outcome
      cases terminal <;> simp [TerminalStatus.toJob] at outcome ⊢

end Lifecycle

/-- The condition: a recovery that queues the job again, and a failure record that publishes
diagnostics, meet no cancel request. -/
def RespectsCancel (job : Job) : JobAction → Prop
  | .worker _ (.recoverQueued _) | .worker _ (.recordUnpublishedFailure ..) =>
    job.row.cancelRequestedAt = none
  | _ => True

variable {maxOutputBytes : Nat} {job next : Job}

theorem RespectsCancel.recovers {action : JobAction} (respects : RespectsCancel job action) :
    job.row.lifecycle.RecoversUncanceled action.event := by
  intro fence same
  cases action with
  | worker owner operation =>
    cases operation with
    | recoverQueued now =>
      have none : job.row.cancelRequestedAt = none := respects
      simp [JobRow.lifecycle, none]
    | _ => cases same
  | _ => cases same

/-- A stage commit needs a job that is not being canceled. -/
private theorem owned_uncanceled {fence : Fence} {row : JobRow} {stage : StageRow}
    (owned : stage.owned fence row) : row.cancelRequestedAt = none :=
  owned.2.2.1

/-- A worker publishes nothing for a job that is being canceled. -/
theorem WorkerOperation.run_artifacts_canceled {fence : Fence} {operation : WorkerOperation}
    (respects : RespectsCancel job (.worker fence operation))
    (requested : job.row.cancelRequestedAt ≠ none)
    (ran : operation.run maxOutputBytes fence job = some next) : next.artifacts = job.artifacts := by
  cases operation with
  | heartbeat | expireRecoveryClaim => exact (Job.updateColumns_frame ran).2
  | rejectInactive | startRunning | markCanceled | recoverFailed | recoverQueued =>
    exact Job.updateStatus_artifacts ran
  | prepareStages rendererImage => exact (Job.prepareStages_frame ran).2.2
  | startPdf =>
    obtain ⟨_, _, _, _, rfl⟩ := Job.updateStage_eq_some (fun row stage => stage.startPdf fence row) ran
    rfl
  | startSvg =>
    obtain ⟨_, _, _, _, rfl⟩ := Job.updateStage_eq_some (fun row stage => stage.startSvg fence row) ran
    rfl
  | finalize run artifacts now =>
    obtain ⟨_, _, _, _, ⟨_, canceled⟩ | ⟨⟨going, _⟩, _⟩⟩ := Job.finalize_cases ran
    · exact Job.updateStatus_artifacts canceled
    · exact absurd going requested
  | commitPdfFailure run artifacts now =>
    obtain ⟨_, _, _, _, ⟨_, canceled⟩ | ⟨going, _⟩⟩ := Job.commitPdfFailure_cases ran
    · exact Job.updateStatus_artifacts canceled
    · exact absurd going requested
  | commitPdf pdfSha256 synctex artifacts now =>
    obtain ⟨_, _, _, _, _, _, completing, _⟩ := Job.commitPdf_cases ran
    obtain ⟨_, _, _, completed, _⟩ := Job.updateStage_eq_some _ completing
    exact absurd (owned_uncanceled (StageRow.completePdf_owned completed)) requested
  | commitSvg run artifacts previousBytes now =>
    obtain ⟨_, _, _, _, _, _, completing, _⟩ := Job.commitSvg_cases ran
    obtain ⟨_, _, _, completed, _⟩ := Job.updateStage_eq_some _ completing
    exact absurd (owned_uncanceled (StageRow.completeSvg_owned completed)) requested
  | recordPublishedFailure status code message now =>
    simp only [WorkerOperation.run, Job.recordPublishedFailure] at ran
    split at ran
    · exact Job.updateStatus_artifacts ran
    · exact Job.updateStatus_artifacts ran
  | recordUnpublishedFailure => exact absurd respects requested

/-- Nobody publishes anything for a job that is being canceled. -/
theorem JobAction.run_artifacts_canceled {action : JobAction} (respects : RespectsCancel job action)
    (noRetry : action.event ≠ .requeueSvg) (requested : job.row.cancelRequestedAt ≠ none)
    (ran : action.run maxOutputBytes job = some next) : next.artifacts ⊆ job.artifacts := by
  cases action with
  | worker fence operation =>
    exact fun artifact member =>
      WorkerOperation.run_artifacts_canceled respects requested ran ▸ member
  | requeueSvg => exact absurd rfl noRetry
  | attachProjectRevision | blockAdmission | clearAdmission | claimExpiredLease =>
    exact fun artifact member => (Job.updateColumns_frame ran).2 ▸ member
  | finishDeletion now =>
    obtain ⟨_, _, rfl⟩ := Option.map_eq_some_iff.mp ran
    exact List.nil_subset _
  | uploadStarted | uploadFinished | uploadFailed | expireReservation | cancel | markDeleting | claimNext
  | claimDeletion | failDeletion =>
    exact fun artifact member => Job.updateStatus_artifacts ran ▸ member

/-- What a cancel promises about a later state of the job. -/
structure StaysCanceled (canceled final : Job) : Prop where
  unsuccessful : final.row.status ≠ .succeeded
  unqueued : final.row.status ≠ .queued
  unpublished : final.artifacts ⊆ canceled.artifacts

/-- Under the condition a successful cancel is final: in every run from it that requeues no SVG stage,
the job never succeeds, is never queued and gets no further artifact. -/
theorem cancel_is_final {canceled final : Job} {now : Timestamp} {actions : List JobAction}
    (reached : Reachable (jobMachine maxOutputBytes) job)
    (cancels : (jobMachine maxOutputBytes).Step job (.cancel now) canceled)
    (run : Run ((jobMachine maxOutputBytes).restrict RespectsCancel) canceled actions final)
    (noRetry : ∀ action ∈ actions, action.event ≠ .requeueSvg) : StaysCanceled canceled final := by
  have start : canceled.row.lifecycle.Canceled :=
    (JobAction.run_step cancels).cancel_canceled (liveUnrendered_of_reachable reached)
  have held : final.row.lifecycle.Canceled ∧ final.artifacts ⊆ canceled.artifacts := by
    refine run.preserves (P := fun job => job.row.lifecycle.Canceled ∧ job.artifacts ⊆ canceled.artifacts)
      ?_ ⟨start, List.Subset.refl _⟩
    rintro before action after member ⟨ran, respects⟩ ⟨inv, kept⟩
    have requested : before.row.cancelRequestedAt ≠ none := by
      have some := inv.requested
      simpa [JobRow.lifecycle, Option.isSome_iff_ne_none] using some
    have fewer := JobAction.run_artifacts_canceled respects (noRetry action member) requested ran
    exact ⟨(JobAction.run_step ran).canceled (noRetry action member) respects.recovers inv,
      List.Subset.trans fewer kept⟩
  refine ⟨held.1.status.1, fun queued => ?_, held.2⟩
  exact held.1.status.2 (by simp [JobRow.lifecycle, queued])

/-- A worker's job that is canceled while it runs; the worker then finds the request. -/
theorem cancel_is_final_running :
    ∃ canceled final, canceled.row.status = .running ∧ final.row.status = .canceled ∧
      StaysCanceled canceled final := by
  obtain ⟨job, before, running⟩ := jobMachine_run 10 { row := insertReserved exampleTicket }
    [.uploadStarted 1, .uploadFinished 2, .claimNext "worker_1" 3 33 none false,
      .worker ⟨"worker_1", 1⟩ (.startRunning 4)]
    (fun job => job.row.status == .running && job.row.leaseOwner == some "worker_1" &&
      job.row.leaseGeneration == 1) (by decide)
  simp only [Bool.and_eq_true, beq_iff_eq] at running
  obtain ⟨canceled, cancels, row⟩ := Job.updateStatus_of_row job (·.cancel 5)
    (if_pos (by simp [running.1.1]))
  have status : canceled.row.status = .running := by simp [row, running.1.1, JobRow.cancelsAtOnce]
  obtain ⟨final, marks, after⟩ := Job.updateStatus_of_row canceled
    (·.markCanceled ⟨"worker_1", 1⟩ 6 none)
    (if_pos ⟨⟨by rw [row]; exact running.1.2, by rw [row]; exact running.2⟩, by simp [status]⟩)
  have run : Run (jobMachine 10) canceled [.worker ⟨"worker_1", 1⟩ (.markCanceled 6)] final := .single marks
  refine ⟨canceled, final, status, by rw [after], ?_⟩
  exact cancel_is_final ⟨_, _, .reserved exampleTicket, before⟩ cancels
    (run.restrict _ (by simp [RespectsCancel])) (by simp [JobAction.event])

/-- A recovery run finds the lease expired and no container left. -/
def recoveredByAnother : List JobAction :=
  [.claimExpiredLease ⟨.running, "worker_1", 33, 1, by decide⟩ "worker_2" 40 340,
    .worker ⟨recoveryOwner "worker_2" 2, 2⟩ (.recoverQueued 41)]

/-- Without the condition a cancel is not final: the job is canceled while it runs, its worker dies, and
the recovery run queues it again. -/
theorem canceled_job_queued_again :
    ¬ ∀ job canceled final now actions, Reachable (jobMachine 10) job →
      (jobMachine 10).Step job (.cancel now) canceled → Run (jobMachine 10) canceled actions final →
      (∀ action ∈ actions, action.event ≠ .requeueSvg) → StaysCanceled canceled final := by
  intro stays
  obtain ⟨job, before, check⟩ := jobMachine_run 10 { row := insertReserved exampleTicket }
    [.uploadStarted 1, .uploadFinished 2, .claimNext "worker_1" 3 33 none false,
      .worker ⟨"worker_1", 1⟩ (.startRunning 4)]
    (fun job => (JobAction.run 10 job (.cancel 5)).any fun canceled =>
      (replay? (JobAction.run 10) canceled recoveredByAnother).any (·.row.status == .queued)) (by decide)
  obtain ⟨canceled, cancels, recovered⟩ := (Option.any_eq_true ..).mp check
  obtain ⟨final, run, queued⟩ := jobMachine_run 10 canceled _ _ recovered
  have final := stays job canceled final 5 recoveredByAnother
    ⟨_, _, .reserved exampleTicket, before⟩ cancels run (by simp [recoveredByAnother, JobAction.event])
  exact final.unqueued (beq_iff_eq.mp queued)

end LatexRenderer
