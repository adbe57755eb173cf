import LatexRenderer.Lifecycle.Refinement

/-! # The cleanup run and the jobs it deletes

One cleanup process runs at a time (its service is a one-shot unit). For each job it claims the row,
removes the files, and records success or failure; it may stop anywhere. The claim takes no job that
still has work before it as long as no SVG requeue revives a job whose deletion is to be retried: the
retry branch of the claim looks at `deletion_status` only, which the requeue leaves as it is.
-/

namespace LatexRenderer

open Machine

/-- The steps of the cleanup script on a job. -/
def LifecycleEvent.isCleanup : LifecycleEvent → Bool
  | .cleanupClaim | .cleanupFinish | .cleanupFail => true
  | _ => false

namespace Lifecycle

/-- A live job is not under deletion. -/
def LiveRetained (s : Lifecycle) : Prop :=
  s.status ∈ JobStatus.active → s.deletion = .retained ∨ s.deletion = .failed

/-- An SVG requeue revives no job whose deletion is pending, running or to be retried. -/
def RequeuesRetained (s : Lifecycle) (event : LifecycleEvent) : Prop :=
  event = .requeueSvg → s.deletion = .retained ∨ s.deletion = .failed

theorem Fresh.liveRetained {s : Lifecycle} (fresh : s.Fresh) : s.LiveRetained :=
  fun _ => .inl fresh.deletion

/-- Every step whose requeue revives retained jobs only keeps live jobs out of deletion. -/
theorem Step.liveRetained {s t : Lifecycle} {event : LifecycleEvent} (step : Step s event t)
    (retained : RequeuesRetained s event) (inv : s.LiveRetained) : t.LiveRetained := by
  intro live
  cases step with
  | housekeeping | work => exact inv live
  | uploadStarted waiting => exact inv (by simp [waiting])
  | uploadFinished uploading => exact inv (by simp [uploading])
  | uploadFailed uploading => exact inv (by simp [uploading])
  | expire => simp at live
  | cancelAtOnce => simp at live
  | cancelRunning running => exact inv (by simp [running])
  | delete => simp at live
  | requeueSvg => exact retained rfl
  | claim queued => exact inv (by simp [queued])
  | reclaim => exact inv live
  | renew => exact inv live
  | start _ validating => exact inv (by simp [validating])
  | finish _ _ terminal => exact absurd live terminal.toJob_not_active
  | recoverQueued _ running => exact inv (by rcases running with status | status <;> simp [status])
  | cleanupClaim => simp at live
  | cleanupFinish => simp at live
  | cleanupFail claimed => exact absurd live (restored_not_active _ claimed.1)

/-- Nobody but the cleanup script moves a job that is being deleted. -/
theorem Step.deleting_frame {s t : Lifecycle} {event : LifecycleEvent} (step : Step s event t)
    (foreign : event.isCleanup = false) (deleting : s.status = .deleting) :
    t.status = s.status ∧ t.deletion = s.deletion := by
  cases step with
  | housekeeping | work | reclaim | renew => exact ⟨rfl, rfl⟩
  | uploadStarted waiting => simp [waiting] at deleting
  | uploadFinished uploading => simp [uploading] at deleting
  | uploadFailed uploading => simp [uploading] at deleting
  | expire waiting => rcases waiting with status | status <;> simp [status] at deleting
  | cancelAtOnce waiting => simp [deleting, JobRow.cancelsAtOnce] at waiting
  | cancelRunning running => simp [running] at deleting
  | @delete terminal ended => cases terminal <;> simp [ended, TerminalStatus.toJob] at deleting
  | requeueSvg ended => rcases ended with status | status | status <;> simp [status] at deleting
  | claim queued => simp [queued] at deleting
  | start _ validating => simp [validating] at deleting
  | finish _ leased => simp [deleting] at leased
  | recoverQueued _ live => rcases live with status | status <;> simp [status] at deleting
  | cleanupClaim | cleanupFinish | cleanupFail => cases foreign

/-- The cleanup script has claimed the job and may be removing its files. -/
def UnderRemoval (s : Lifecycle) : Prop :=
  s.status = .deleting ∧ s.deletion = .deleting

/-- The files of the job are being removed, or were. -/
def Gone (s : Lifecycle) : Prop :=
  s.UnderRemoval ∨ s.status = .deleted

theorem Fresh.not_gone {s : Lifecycle} (fresh : s.Fresh) : ¬ s.Gone := by
  rintro (⟨deleting, _⟩ | deleted)
  · rcases fresh.status with status | status <;> simp [status] at deleting
  · rcases fresh.status with status | status <;> simp [status] at deleted

/-- Only the claim of the cleanup script starts a removal. -/
theorem Step.gone_before {s t : Lifecycle} {event : LifecycleEvent} (step : Step s event t)
    (other : event ≠ .cleanupClaim) (gone : t.Gone) : s.Gone := by
  cases step with
  | housekeeping | work | reclaim | renew => exact gone
  | uploadStarted | uploadFinished | uploadFailed | expire | cancelAtOnce | requeueSvg | claim | start
  | recoverQueued => simp [Gone, UnderRemoval] at gone
  | cancelRunning running => simp [Gone, UnderRemoval, running] at gone
  | delete => simp [Gone, UnderRemoval] at gone
  | finish _ _ terminal => cases terminal <;> simp [Gone, UnderRemoval, TerminalStatus.toJob] at gone
  | cleanupClaim => exact absurd rfl other
  | cleanupFinish claimed | cleanupFail claimed => exact .inl claimed

theorem Step.cleanupClaim_not_active {s t : Lifecycle} (step : Step s .cleanupClaim t)
    (inv : s.LiveRetained) : s.status ∉ JobStatus.active := by
  intro live
  have retained := inv live
  cases step with
  | cleanupClaim due =>
    rcases due with ⟨_, ended⟩ | ⟨deleting, _⟩ | again
    · obtain ⟨terminal, found⟩ := Option.isSome_iff_exists.mp ended
      rw [JobStatus.terminal?_eq_some.mp found] at live
      exact terminal.toJob_not_active live
    · simp [deleting] at live
    · rcases retained with status | status <;> simp [status] at again

end Lifecycle

/-- Where the cleanup process is with this job: not at it, or past the claim. -/
inductive Cleaner where
  | idle | removing
deriving DecidableEq, Repr

/-- A job and the cleanup process. -/
structure CleanupState where
  job : Job
  cleaner : Cleaner := .idle

/-- A step of the cleanup process, or of anyone else. -/
inductive CleanupAction where
  | other (action : JobAction)
  | claim (view : CleanupView)
  | removeFiles
  | finish (now : Timestamp)
  | fail (now : Timestamp) (error : String)
  | stop

/-- The cleanup loop's body for one job, step by step, with everyone else's actions in between. -/
def CleanupAction.run (maxOutputBytes : Nat) (state : CleanupState) : CleanupAction → Option CleanupState
  | .other action =>
    if action.event.isCleanup then none
    else (action.run maxOutputBytes state.job).map fun job => { state with job := job }
  | .claim view =>
    if state.cleaner = .idle then
      ((JobAction.claimDeletion view).run maxOutputBytes state.job).map fun job => ⟨job, .removing⟩
    else none
  | .removeFiles => if state.cleaner = .removing then some state else none
  | .finish now =>
    if state.cleaner = .removing then
      ((JobAction.finishDeletion now).run maxOutputBytes state.job).map fun job => ⟨job, .idle⟩
    else none
  | .fail now error =>
    if state.cleaner = .removing then
      ((JobAction.failDeletion now error).run maxOutputBytes state.job).map fun job => ⟨job, .idle⟩
    else none
  | .stop => if state.cleaner = .removing then some { state with cleaner := .idle } else none

/-- The life of one job with the cleanup process beside it. -/
def cleanupMachine (maxOutputBytes : Nat) : LabeledMachine CleanupState CleanupAction :=
  ofPartial (fun state => state.job.Inserted ∧ state.cleaner = .idle)
    (CleanupAction.run maxOutputBytes)

theorem cleanupMachine_run (maxOutputBytes : Nat) (state : CleanupState) (actions : List CleanupAction)
    (check : CleanupState → Bool)
    (passes : (replay? (CleanupAction.run maxOutputBytes) state actions).any check = true) :
    ∃ next, Run (cleanupMachine maxOutputBytes) state actions next ∧ check next = true :=
  exists_run_of_replay? passes

/-- The condition: an SVG requeue takes no job whose deletion is pending, running or to be retried. -/
def RequeuesRetained (state : CleanupState) : CleanupAction → Prop
  | .other action => state.job.row.lifecycle.RequeuesRetained action.event
  | _ => True

/-- Past the claim the row stays as the claim left it, until the cleanup process itself ends it. -/
structure DeletionInvariant (state : CleanupState) : Prop where
  live : state.job.row.lifecycle.LiveRetained
  claimed : state.cleaner = .removing →
    state.job.row.status = .deleting ∧ state.job.row.deletionStatus = .deleting

variable {maxOutputBytes : Nat} {state next : CleanupState}

/-- The claim leaves the row deleting. -/
private theorem claimed_row {job after : Job} {view : CleanupView}
    (ran : (JobAction.claimDeletion view).run maxOutputBytes job = some after) :
    after.row.status = .deleting ∧ after.row.deletionStatus = .deleting := by
  have updated := Job.updateStatus_row ran
  simp only [JobRow.claimDeletion, Option.ite_none_right_eq_some, Option.some.injEq] at updated
  rw [← updated.2]
  exact ⟨rfl, rfl⟩

theorem CleanupAction.run_invariant {action : CleanupAction}
    (ran : action.run maxOutputBytes state = some next) (retained : RequeuesRetained state action)
    (inv : DeletionInvariant state) : DeletionInvariant next := by
  cases action with
  | other action =>
    simp only [run, Option.ite_none_left_eq_some, Option.map_eq_some_iff, Bool.not_eq_true] at ran
    obtain ⟨foreign, job, moved, rfl⟩ := ran
    have step := JobAction.run_step moved
    refine ⟨step.liveRetained retained inv.live, fun removing => ?_⟩
    have before := inv.claimed removing
    have same := step.deleting_frame foreign before.1
    exact ⟨same.1.trans before.1, same.2.trans before.2⟩
  | claim view =>
    simp only [run, Option.ite_none_right_eq_some, Option.map_eq_some_iff] at ran
    obtain ⟨_, job, moved, rfl⟩ := ran
    exact ⟨(JobAction.run_step moved).liveRetained (fun other => nomatch other) inv.live,
      fun _ => claimed_row moved⟩
  | removeFiles =>
    simp only [run, Option.ite_none_right_eq_some, Option.some.injEq] at ran
    exact ran.2 ▸ inv
  | finish now =>
    simp only [run, Option.ite_none_right_eq_some, Option.map_eq_some_iff] at ran
    obtain ⟨_, job, moved, rfl⟩ := ran
    exact ⟨(JobAction.run_step moved).liveRetained (fun other => nomatch other) inv.live,
      fun removing => nomatch removing⟩
  | fail now error =>
    simp only [run, Option.ite_none_right_eq_some, Option.map_eq_some_iff] at ran
    obtain ⟨_, job, moved, rfl⟩ := ran
    exact ⟨(JobAction.run_step moved).liveRetained (fun other => nomatch other) inv.live,
      fun removing => nomatch removing⟩
  | stop =>
    simp only [run, Option.ite_none_right_eq_some, Option.some.injEq] at ran
    rw [← ran.2]
    exact ⟨inv.live, fun removing => nomatch removing⟩

theorem deletionInvariant_of_reachable
    (reached : Reachable ((cleanupMachine maxOutputBytes).restrict RequeuesRetained) state) :
    DeletionInvariant state := by
  refine reached.induction (P := DeletionInvariant) ?_ ?_
  · rintro start ⟨inserted, idle⟩
    exact ⟨inserted.fresh.liveRetained, fun removing => nomatch idle.symm.trans removing⟩
  · intro start action after _ taken inv
    exact CleanupAction.run_invariant taken.1 taken.2 inv

/-- Deletion never takes a live job: neither the claim nor the removal of files happens to a job that
is reserved, uploading, queued, validating or running. -/
def SparesLiveJobs (maxOutputBytes : Nat) (state : CleanupState) : Prop :=
  ∀ action next, (cleanupMachine maxOutputBytes).Step state action next →
    (∃ view, action = .claim view) ∨ action = .removeFiles →
    state.job.row.status ∉ JobStatus.active

/-- Under the condition, every state of every run spares live jobs. -/
theorem deletion_spares_live_jobs
    (reached : Reachable ((cleanupMachine maxOutputBytes).restrict RequeuesRetained) state) :
    SparesLiveJobs maxOutputBytes state := by
  have inv := deletionInvariant_of_reachable reached
  rintro action next step (⟨view, rfl⟩ | rfl)
  · have ran : CleanupAction.run maxOutputBytes state (.claim view) = some next := step
    simp only [CleanupAction.run, Option.ite_none_right_eq_some, Option.map_eq_some_iff] at ran
    obtain ⟨_, job, moved, _⟩ := ran
    exact (JobAction.run_step moved).cleanupClaim_not_active inv.live
  · have ran : CleanupAction.run maxOutputBytes state .removeFiles = some next := step
    simp only [CleanupAction.run, Option.ite_none_right_eq_some] at ran
    simp [(inv.claimed ran.1).1]

/-- A job that is being deleted, in a run that meets the condition. -/
theorem deletion_spares_live_jobs_deleting :
    ∃ state : CleanupState, state.cleaner = .removing ∧ SparesLiveJobs 10 state := by
  obtain ⟨state, run, check⟩ := cleanupMachine_run 10
    { job := { row := insertReserved exampleTicket } }
    [.other (.cancel 1), .other (.markDeleting 2), .claim ⟨3, 0, false, false⟩]
    (fun state => state.cleaner == .removing) (by decide)
  have allowed := run.restrict RequeuesRetained (by
    simp [RequeuesRetained, Lifecycle.RequeuesRetained, JobAction.event])
  exact ⟨state, beq_iff_eq.mp check,
    deletion_spares_live_jobs ⟨_, _, ⟨.reserved exampleTicket, rfl⟩, allowed⟩⟩

/-- Its user deletes the job, a file cannot be removed, and the user has the SVG stage retried. -/
def requeuedAfterFailedDeletion : List CleanupAction :=
  svgFailed.map .other ++ [.other (.markDeleting 7), .claim ⟨8, 0, false, false⟩, .removeFiles,
    .fail 9 "EBUSY", .other (.requeueSvg ⟨"user_1", 10, 0, 10, exampleSource, 1⟩)]

/-- Without the condition it does not: the requeued job is claimed for deletion while it is queued. -/
theorem deletion_takes_requeued_job :
    ¬ ∀ state, Reachable (cleanupMachine 10) state → SparesLiveJobs 10 state := by
  intro spares
  let view : CleanupView := ⟨400000, 0, false, false⟩
  obtain ⟨state, run, check⟩ := cleanupMachine_run 10
    { job := { row := insertReserved exampleStagedTicket } } requeuedAfterFailedDeletion
    (fun state => state.job.row.status == .queued &&
      (CleanupAction.run 10 state (.claim view)).isSome) (by decide)
  simp only [Bool.and_eq_true, beq_iff_eq, Option.isSome_iff_exists] at check
  obtain ⟨queued, next, claimed⟩ := check
  have reached : Reachable (cleanupMachine 10) state :=
    ⟨_, _, ⟨.reserved exampleStagedTicket, rfl⟩, run⟩
  exact spares state reached (.claim view) next claimed (.inl ⟨view, rfl⟩) (by simp [queued])

end LatexRenderer
