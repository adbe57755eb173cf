import LatexRenderer.Lifecycle.Refinement
import LatexRenderer.Model.Jobs.System

/-! # Lease fencing

The lease generation of a job grows at every claim, and every operation of a worker or a recovery run
needs the generation it carries to be the current one. So a worker that was replaced changes nothing,
each generation ends the job at most once, and it ends it together with all of its artifact rows.
-/

namespace LatexRenderer

open Machine

namespace Lifecycle

theorem Step.generation_le {s t : Lifecycle} {event : LifecycleEvent} (step : Step s event t) :
    s.generation ≤ t.generation := by
  cases step with
  | claim | reclaim => exact Nat.le_succ _
  | _ => exact Nat.le_refl _

/-- Both kinds of claim give the lease a new generation. -/
theorem Step.generation_lt {s t : Lifecycle} {event : LifecycleEvent} (step : Step s event t)
    (claims : event = .claim ∨ event = .reclaim) : s.generation < t.generation := by
  cases step with
  | claim | reclaim => exact Nat.lt_succ_self _
  | _ => simp at claims

/-- A step that carries a fence finds the lease held under it. -/
theorem Step.worker_held {s t : Lifecycle} {event : LifecycleEvent}
    (step : Step s event t) (fence : Fence) (carries : event = .worker fence ∨ event = .recoverQueued fence) :
    s.heldBy fence := by
  cases step with
  | work held | renew held | start held | finish held | recoverQueued held =>
    simp only [LifecycleEvent.worker.injEq, LifecycleEvent.recoverQueued.injEq, reduceCtorEq,
      or_false, false_or] at carries
    exact carries ▸ held
  | _ => simp at carries

/-- A lease that was free is held again only under a new generation. -/
theorem Step.owned_again {s t : Lifecycle} {event : LifecycleEvent} (step : Step s event t)
    (free : ¬ s.owner ≠ none) (held : t.owner ≠ none) : s.generation < t.generation := by
  cases step with
  | claim | reclaim => exact Nat.lt_succ_self _
  | _ => first | exact absurd held free | exact absurd rfl held

/-- A holder's step leaves the generation as it is. -/
theorem Step.generation_eq {s t : Lifecycle} {event : LifecycleEvent}
    (step : Step s event t) (fence : Fence) (carries : event = .worker fence ∨ event = .recoverQueued fence) :
    t.generation = s.generation := by
  cases step with
  | claim | reclaim => simp at carries
  | _ => rfl

end Lifecycle

/-- The generation an action carries: a worker's claim, or the lease a recovery run saw expired. -/
def JobAction.carriedGeneration? : JobAction → Option Nat
  | .worker fence _ => some fence.generation
  | .claimExpiredLease stale .. => some stale.leaseGeneration
  | _ => none

/-- The operations that end the job. -/
def WorkerOperation.isTerminal : WorkerOperation → Bool
  | .rejectInactive _ | .markCanceled _ | .finalize .. | .commitPdfFailure .. | .commitSvg ..
  | .recordPublishedFailure .. | .recordUnpublishedFailure .. | .recoverFailed _ => true
  | _ => false

/-- The terminal operations that publish the rows they carry. A job that is to be canceled is ended without them by
`finalize` and `commitPdfFailure`. -/
def WorkerOperation.publishes (row : JobRow) : WorkerOperation → Bool
  | .finalize .. => row.cancelRequestedAt.isNone && decide (row.status ≠ .canceled)
  | .commitPdfFailure .. => row.cancelRequestedAt.isNone
  | .commitSvg .. | .recordUnpublishedFailure .. => true
  | _ => false

/-- The action is a terminal operation of generation `g`. -/
def JobAction.endsJobUnder (g : Nat) : JobAction → Bool
  | .worker fence operation => operation.isTerminal && fence.generation == g
  | _ => false

variable {maxOutputBytes : Nat} {job next : Job} {fence : Fence} {operation : WorkerOperation}

theorem JobAction.worker_held
    (ran : (JobAction.worker fence operation).run maxOutputBytes job = some next) :
    job.row.ownedBy fence := by
  refine (JobAction.run_step ran).worker_held fence ?_
  cases operation with
  | recoverQueued now => exact .inr rfl
  | _ => exact .inl rfl

/-- The job machine is fenced by the lease generation. -/
theorem jobMachine_fenced (maxOutputBytes : Nat) :
    Fenced (jobMachine maxOutputBytes) (·.row.leaseGeneration) (·.row.leaseOwner ≠ none)
      JobAction.carriedGeneration? where
  mono step := (JobAction.run_step step).generation_le
  reclaim step free held := (JobAction.run_step step).owned_again free held
  current := by
    intro job action next g step carried
    cases action with
    | worker fence operation =>
      have held := JobAction.worker_held step
      exact ⟨held.2.trans (Option.some.inj carried), by simp [held.1]⟩
    | claimExpiredLease stale workerId now expires =>
      have updated := Job.updateColumns_row step
      simp only [JobRow.claimExpiredLease, Option.ite_none_right_eq_some] at updated
      obtain ⟨⟨_, held, _, same, _⟩, _⟩ := updated
      exact ⟨same.trans (Option.some.inj carried), by simp [held]⟩
    | _ => cases carried

/-- The job has a terminal status and its lease is released. -/
def JobRow.Ended (row : JobRow) : Prop :=
  row.leaseOwner = none ∧ row.status.terminal?.isSome

section Ended

variable {row ended : JobRow} {now : Timestamp}

private theorem markCanceled_ended {bytes : Option Nat}
    (updated : row.markCanceled fence now bytes = some ended) : ended.Ended := by
  simp only [JobRow.markCanceled, Option.ite_none_right_eq_some, Option.some.injEq] at updated
  rw [← updated.2]
  exact ⟨rfl, rfl⟩

private theorem finishFailure_ended {status : FailureStatus} {code message : String} {bytes : Nat}
    (updated : row.finishFailure fence status code message now bytes = some ended) : ended.Ended := by
  simp only [JobRow.finishFailure, Option.ite_none_right_eq_some, Option.some.injEq] at updated
  rw [← updated.2]
  exact ⟨rfl, by simp⟩

private theorem recoverFailed_ended (updated : row.recoverFailed fence now = some ended) :
    ended.Ended := by
  simp only [JobRow.recoverFailed, Option.ite_none_right_eq_some, Option.some.injEq] at updated
  rw [← updated.2]
  exact ⟨rfl, rfl⟩

private theorem transitionOwned_ended {source : List JobStatus} (terminal : TerminalStatus)
    {updates : WorkerUpdates} (release : updates.releaseLease = true)
    (updated : row.transitionOwned fence source terminal.toJob now updates = some ended) :
    ended.Ended := by
  simp only [JobRow.transitionOwned, Option.ite_none_right_eq_some, Option.some.injEq] at updated
  rw [← updated.2]
  exact ⟨if_pos release, by simp⟩

private theorem endRender_ended {result : RenderResult} {exitCode total : Nat}
    {heartbeatAt : Option Timestamp}
    (updated : job.endRender fence result exitCode total heartbeatAt now = some next) :
    next.row.Ended :=
  transitionOwned_ended _ rfl (Job.updateStatus_row updated)

end Ended

/-- A terminal operation ends the job whenever it changes anything. -/
theorem WorkerOperation.run_ended (terminal : operation.isTerminal = true)
    (ran : operation.run maxOutputBytes fence job = some next) : next.row.Ended := by
  cases operation with
  | rejectInactive now => exact transitionOwned_ended .rejected rfl (Job.updateStatus_row ran)
  | markCanceled now => exact markCanceled_ended (Job.updateStatus_row ran)
  | finalize run artifacts now =>
    obtain ⟨_, _, _, _, ⟨_, canceled⟩ | ⟨_, _, _, ended⟩⟩ := Job.finalize_cases ran
    · exact markCanceled_ended (Job.updateStatus_row canceled)
    · exact endRender_ended ended
  | commitPdfFailure run artifacts now =>
    obtain ⟨_, _, _, _, ⟨_, canceled⟩ | ⟨_, _, _, _, _, ended⟩⟩ := Job.commitPdfFailure_cases ran
    · exact markCanceled_ended (Job.updateStatus_row canceled)
    · exact endRender_ended ended
  | commitSvg run artifacts previousBytes now =>
    obtain ⟨_, _, _, _, _, _, _, _, ended⟩ := Job.commitSvg_cases ran
    exact endRender_ended ended
  | recordPublishedFailure status code message now =>
    simp only [WorkerOperation.run, Job.recordPublishedFailure] at ran
    split at ran
    · exact markCanceled_ended (Job.updateStatus_row ran)
    · exact finishFailure_ended (Job.updateStatus_row ran)
  | recordUnpublishedFailure status code message artifacts now =>
    obtain ⟨_, _, finished, ended, inserting⟩ := Job.recordUnpublishedFailure_cases ran
    rw [(Job.insertArtifacts_frame inserting).1]
    exact finishFailure_ended (Job.updateStatus_row ended)
  | recoverFailed now => exact recoverFailed_ended (Job.updateStatus_row ran)
  | heartbeat | startRunning | prepareStages | startPdf | startSvg | commitPdf | expireRecoveryClaim
  | recoverQueued => cases terminal

/-- Any other operation keeps the lease or queues the job again. -/
theorem WorkerOperation.run_not_ended (other : operation.isTerminal = false)
    (ran : operation.run maxOutputBytes fence job = some next) : ¬ next.row.Ended := by
  have held : job.row.leaseOwner ≠ none := by simp [(JobAction.worker_held ran).1]
  rintro ⟨free, ended⟩
  cases operation with
  | heartbeat now expires =>
    have updated := Job.updateColumns_row ran
    simp only [JobRow.heartbeat, Option.ite_none_right_eq_some, Option.some.injEq] at updated
    exact held (by rw [← updated.2] at free; exact free)
  | startRunning now =>
    have updated := Job.updateStatus_row ran
    simp only [JobRow.transitionOwned, Option.ite_none_right_eq_some, Option.some.injEq] at updated
    exact held (by rw [← updated.2] at free; exact free)
  | prepareStages rendererImage => exact held ((Job.prepareStages_frame ran).2.1 ▸ free)
  | startPdf =>
    obtain ⟨_, _, _, _, rfl⟩ := Job.updateStage_eq_some (fun row stage => stage.startPdf fence row) ran
    exact held free
  | startSvg =>
    obtain ⟨_, _, _, _, rfl⟩ := Job.updateStage_eq_some (fun row stage => stage.startSvg fence row) ran
    exact held free
  | commitPdf pdfSha256 synctex artifacts now =>
    obtain ⟨_, _, _, completed, inserted, _, completing, publishing, kept⟩ := Job.commitPdf_cases ran
    obtain ⟨_, _, _, _, rfl⟩ := Job.updateStage_eq_some _ completing
    have updated := Job.updateStatus_row kept
    rw [(Job.publishArtifacts_frame publishing).1] at updated
    simp only [JobRow.transitionOwned, Option.ite_none_right_eq_some, Option.some.injEq] at updated
    exact held (by rw [← updated.2] at free; exact free)
  | expireRecoveryClaim now =>
    have updated := Job.updateColumns_row ran
    simp only [JobRow.expireRecoveryClaim, Option.ite_none_right_eq_some, Option.some.injEq] at updated
    exact held (by rw [← updated.2] at free; exact free)
  | recoverQueued now =>
    have updated := Job.updateStatus_row ran
    simp only [JobRow.recoverQueued, Option.ite_none_right_eq_some, Option.some.injEq] at updated
    rw [← updated.2] at ended
    cases ended
  | rejectInactive | markCanceled | finalize | commitPdfFailure | commitSvg | recordPublishedFailure
  | recordUnpublishedFailure | recoverFailed => cases other

/-- A terminal operation publishes all artifact rows it carries, or none. -/
theorem WorkerOperation.run_publishes (terminal : operation.isTerminal = true)
    (ran : operation.run maxOutputBytes fence job = some next) :
    if operation.publishes job.row then ∀ row ∈ operation.artifactRows fence, next.Stored row
    else next.artifacts = job.artifacts := by
  cases operation with
  | rejectInactive | markCanceled | recoverFailed => exact Job.updateStatus_artifacts ran
  | finalize run artifacts now =>
    obtain ⟨_, _, distinct, _, ⟨asked, canceled⟩ | ⟨going, inserted, inserting, ended⟩⟩ := Job.finalize_cases ran
    · have silent : ¬ publishes job.row (.finalize run artifacts now) = true := by
        simpa [publishes, ← Option.isSome_iff_ne_none] using or_iff_not_imp_left.mp asked
      rw [if_neg silent]
      exact Job.updateStatus_artifacts canceled
    · have publishing : publishes job.row (.finalize run artifacts now) = true := by simp [publishes, going]
      rw [if_pos publishing]
      intro row member
      have stored := Job.insertArtifacts_stored inserting (rows_distinct _ _ distinct) row member
      rwa [Job.Stored, Job.updateStatus_artifacts ended]
  | commitPdfFailure run artifacts now =>
    obtain ⟨_, _, distinct, _, ⟨asked, canceled⟩ | ⟨going, _, inserted, numbered, publishing, ended⟩⟩ :=
      Job.commitPdfFailure_cases ran
    · have silent : ¬ publishes job.row (.commitPdfFailure run artifacts now) = true := by
        simpa [publishes, ← Option.isSome_iff_ne_none] using asked
      rw [if_neg silent]
      exact Job.updateStatus_artifacts canceled
    · have open' : publishes job.row (.commitPdfFailure run artifacts now) = true := by simp [publishes, going]
      rw [if_pos open']
      intro row member
      have generation := (storageGeneration?_eq_some numbered).1
      rw [if_neg (by decide), Nat.add_zero] at generation
      subst generation
      have stored := Job.publishArtifacts_stored publishing (rows_distinct _ _ distinct) row member
      rwa [Job.Stored, Job.updateStatus_artifacts ended]
  | commitSvg run artifacts previousBytes now =>
    obtain ⟨_, distinct, _, _, inserted, numbered, _, publishing, ended⟩ := Job.commitSvg_cases ran
    rw [if_pos (show publishes job.row (.commitSvg run artifacts previousBytes now) = true from rfl)]
    intro row member
    have generation := (storageGeneration?_eq_some numbered).1
    rw [if_pos rfl] at generation
    subst generation
    have stored := Job.publishArtifacts_stored publishing (rows_distinct _ _ distinct) row member
    rwa [Job.Stored, Job.updateStatus_artifacts ended]
  | recordPublishedFailure status code message now =>
    simp only [WorkerOperation.run, Job.recordPublishedFailure] at ran
    split at ran
    · exact Job.updateStatus_artifacts ran
    · exact Job.updateStatus_artifacts ran
  | recordUnpublishedFailure status code message artifacts now =>
    obtain ⟨_, distinct, _, _, inserting⟩ := Job.recordUnpublishedFailure_cases ran
    exact Job.insertArtifacts_stored inserting (rows_distinct _ _ distinct)
  | heartbeat | startRunning | prepareStages | startPdf | startSvg | commitPdf | expireRecoveryClaim
  | recoverQueued => cases terminal

/-- In a run, each generation ends the job at most once. -/
theorem endsJobUnder_count_le_one (g : Nat) {actions : List JobAction}
    (run : Run (jobMachine maxOutputBytes) job actions next) :
    actions.countP (JobAction.endsJobUnder g) ≤ 1 := by
  refine (jobMachine_fenced maxOutputBytes).release_count_le_one g _ ?_ ?_ run
  · intro action ends
    cases action with
    | worker fence operation =>
      simp only [JobAction.endsJobUnder, Bool.and_eq_true, beq_iff_eq] at ends
      exact congrArg some ends.2
    | _ => cases ends
  · intro before action after step ends
    cases action with
    | worker fence operation =>
      simp only [JobAction.endsJobUnder, Bool.and_eq_true] at ends
      have ended := WorkerOperation.run_ended ends.1 step
      refine ⟨(JobAction.run_step step).generation_eq fence ?_, fun held => held ended.1⟩
      cases operation with
      | recoverQueued now => exact .inr rfl
      | _ => exact .inl rfl
    | _ => cases ends

/-- Lease fencing: the generation grows at every claim and never falls; an operation that carries a
generation that was passed changes nothing; each generation ends the job at most once in any run; and
the operation that ends it publishes all of its artifact rows or none, as `publishes` says. -/
theorem lease_fencing (maxOutputBytes : Nat) :
    (∀ job action next, JobAction.run maxOutputBytes job action = some next →
      job.row.leaseGeneration ≤ next.row.leaseGeneration ∧
      (action.event = .claim ∨ action.event = .reclaim →
        job.row.leaseGeneration < next.row.leaseGeneration)) ∧
    (∀ job action g, JobAction.carriedGeneration? action = some g → g < job.row.leaseGeneration →
      action.run maxOutputBytes job = none) ∧
    (∀ job actions next g, Run (jobMachine maxOutputBytes) job actions next →
      actions.countP (JobAction.endsJobUnder g) ≤ 1) ∧
    (∀ job fence operation next, WorkerOperation.run maxOutputBytes fence job operation = some next →
      (operation.isTerminal = true ↔ next.row.Ended) ∧
      (next.row.Ended → if operation.publishes job.row then ∀ row ∈ operation.artifactRows fence, next.Stored row
        else next.artifacts = job.artifacts)) := by
  refine ⟨?_, ?_, ?_, ?_⟩
  · intro job action next ran
    have step := JobAction.run_step ran
    exact ⟨step.generation_le, step.generation_lt⟩
  · intro job action g carried passed
    refine Option.eq_none_iff_forall_ne_some.mpr fun next ran => ?_
    exact (jobMachine_fenced maxOutputBytes).stale passed carried ran
  · intro job actions next g run
    exact endsJobUnder_count_le_one g run
  · intro job fence operation next ran
    have iff : operation.isTerminal = true ↔ next.row.Ended := by
      constructor
      · intro terminal
        exact WorkerOperation.run_ended terminal ran
      · intro ended
        by_contra other
        exact WorkerOperation.run_not_ended (Bool.not_eq_true _ ▸ other) ran ended
    exact ⟨iff, fun ended => WorkerOperation.run_publishes (iff.mpr ended) ran⟩

end LatexRenderer
