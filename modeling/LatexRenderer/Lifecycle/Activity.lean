import LatexRenderer.Lifecycle.Refinement

/-! # The outcome kept in `render_status`

A live job has no outcome, and an outcome of success is only ever written by a worker that ends a
running job with it. -/

namespace LatexRenderer

open Machine

namespace Lifecycle

/-- A live job has no outcome yet. -/
def LiveUnrendered (s : Lifecycle) : Prop :=
  s.status ∈ JobStatus.active → s.renderStatus = none

/-- The job succeeded, or did before it was taken for deletion. -/
def Succeeded (s : Lifecycle) : Prop :=
  s.status = .succeeded ∨ s.renderStatus = some .succeeded

theorem Fresh.liveUnrendered {s : Lifecycle} (fresh : s.Fresh) : s.LiveUnrendered :=
  fun _ => fresh.renderStatus

theorem Step.liveUnrendered {s t : Lifecycle} {event : LifecycleEvent} (step : Step s event t)
    (inv : s.LiveUnrendered) : t.LiveUnrendered := by
  intro live
  cases step with
  | housekeeping | work | reclaim | renew => exact inv live
  | uploadStarted waiting => exact inv (by simp [waiting])
  | uploadFinished uploading => exact inv (by simp [uploading])
  | uploadFailed uploading => exact inv (by simp [uploading])
  | expire | cancelAtOnce | delete | cleanupClaim | cleanupFinish => simp at live
  | cancelRunning running => exact inv (by simp [running])
  | requeueSvg => rfl
  | claim queued => exact inv (by simp [queued])
  | start _ validating => exact inv (by simp [validating])
  | finish _ _ terminal => exact absurd live terminal.toJob_not_active
  | recoverQueued _ running => exact inv (by rcases running with status | status <;> simp [status])
  | cleanupFail claimed => exact absurd live (restored_not_active _ claimed.1)

/-- Success is new only where a worker ends the job with it. -/
theorem Step.succeeded {s t : Lifecycle} {event : LifecycleEvent} (step : Step s event t)
    (success : t.Succeeded) :
    s.Succeeded ∨ (∃ fence, event = .worker fence) ∧ t.status = .succeeded := by
  cases step with
  | housekeeping | work | reclaim | renew => exact .inl success
  | uploadStarted | uploadFinished | uploadFailed | claim | start | recoverQueued | cleanupFinish =>
    exact .inl (.inr (success.resolve_left (by simp)))
  | expire | cancelAtOnce | requeueSvg => simp [Succeeded] at success
  | cancelRunning running => exact .inl (.inr (success.resolve_left (by simp [running])))
  | @delete terminal ended =>
    have same := Option.some.inj (success.resolve_left (by simp))
    exact .inl (.inl (by rw [ended, same]; rfl))
  | @finish fence _ _ terminal =>
    have same : terminal = .succeeded := by
      rcases success with status | outcome
      · cases terminal <;> simp [TerminalStatus.toJob] at status ⊢
      · exact Option.some.inj outcome
    exact .inr ⟨⟨fence, rfl⟩, by rw [same]; rfl⟩
  | cleanupClaim =>
    have kept := success.resolve_left (by simp)
    cases render : s.renderStatus with
    | some outcome => exact .inl (.inr (by simpa [render] using kept))
    | none =>
      exact .inl (.inl (JobStatus.terminal?_eq_some.mp (by simpa [render] using kept)))
  | cleanupFail claimed =>
    rcases success with status | outcome
    · cases render : s.renderStatus with
      | none => simp [render, claimed.1] at status
      | some terminal =>
        have same : terminal = .succeeded := by
          simp only [render, Option.map_some, Option.getD_some] at status
          cases terminal <;> simp [TerminalStatus.toJob] at status ⊢
        exact .inl (.inr (by rw [render, same]))
    · exact .inl (.inr outcome)

end Lifecycle

variable {maxOutputBytes : Nat} {job : Job}

theorem liveUnrendered_of_reachable (reached : Reachable (jobMachine maxOutputBytes) job) :
    job.row.lifecycle.LiveUnrendered := by
  refine reached.induction (P := fun job => job.row.lifecycle.LiveUnrendered) ?_ ?_
  · intro start inserted
    exact (Job.Inserted.fresh inserted).liveUnrendered
  · intro start action after _ taken inv
    exact (JobAction.run_step taken).liveUnrendered inv

end LatexRenderer

/-! ## When a job is active, and what a claim that started to render may assume

Only an SVG requeue makes an ended job active again, a deleted job stays deleted, and a claim that has
moved its job to running finds it running, or taken for deletion, for as long as it holds the lease.
-/

namespace LatexRenderer

open Machine

namespace Lifecycle

/-- A deleted job has its deletion behind it. -/
def DeletionSettled (s : Lifecycle) : Prop :=
  s.status = .deleted → s.deletion = .deleted

/-- What holds under a claim that has moved the job to running. -/
structure Rendering (fence : Fence) (s : Lifecycle) : Prop where
  granted : fence.generation ≤ s.generation
  running : s.heldBy fence →
    (s.status = .running ∨ s.status = .deleting ∨ s.status = .deleted) ∧ s.renderStatus = none

variable {s t : Lifecycle} {event : LifecycleEvent}

/-- An ended job becomes active only through an SVG requeue. -/
theorem Step.active_before (step : Step s event t) (noRetry : event ≠ .requeueSvg)
    (active : t.status ∈ JobStatus.active) : s.status ∈ JobStatus.active := by
  cases step with
  | housekeeping | work | reclaim | renew => exact active
  | uploadStarted waiting => simp [waiting]
  | uploadFinished uploading => simp [uploading]
  | uploadFailed uploading => simp [uploading]
  | expire | cancelAtOnce | delete | cleanupClaim | cleanupFinish => simp at active
  | cancelRunning running => simp [running]
  | requeueSvg => exact absurd rfl noRetry
  | claim queued => simp [queued]
  | start _ validating => simp [validating]
  | finish _ _ terminal => exact absurd active terminal.toJob_not_active
  | recoverQueued _ live => rcases live with status | status <;> simp [status]
  | cleanupFail claimed => exact absurd active (restored_not_active _ claimed.1)

theorem Fresh.deletionSettled (fresh : s.Fresh) : s.DeletionSettled := by
  intro deleted
  rcases fresh.status with status | status <;> simp [status] at deleted

/-- A deleted job stays deleted, with its deletion settled. -/
theorem Step.deletionSettled (step : Step s event t) (settled : s.DeletionSettled) :
    t.DeletionSettled ∧ (s.status = .deleted → t.status = .deleted) := by
  cases step with
  | housekeeping | work | reclaim | renew => exact ⟨settled, id⟩
  | uploadStarted status | uploadFinished status | uploadFailed status | cancelRunning status
  | claim status | start _ status =>
    exact ⟨by simp [DeletionSettled, status], by simp [status]⟩
  | expire waiting | recoverQueued _ waiting =>
    exact ⟨by simp [DeletionSettled], by rcases waiting with status | status <;> simp [status]⟩
  | cancelAtOnce waiting =>
    exact ⟨by simp [DeletionSettled], fun deleted => by simp [deleted, JobRow.cancelsAtOnce] at waiting⟩
  | @delete terminal ended =>
    exact ⟨by simp [DeletionSettled], fun deleted => by
      rw [deleted] at ended
      cases terminal <;> cases ended⟩
  | requeueSvg ended =>
    exact ⟨by simp [DeletionSettled], by rcases ended with status | status | status <;> simp [status]⟩
  | finish _ leased terminal =>
    refine ⟨fun deleted => ?_, fun deleted => ?_⟩
    · cases terminal <;> cases deleted
    · simp [deleted] at leased
  | cleanupClaim due =>
    refine ⟨by simp [DeletionSettled], fun deleted => ?_⟩
    have finished := settled deleted
    simp [deleted, finished, JobStatus.terminal?] at due
  | cleanupFinish => exact ⟨fun _ => rfl, fun _ => rfl⟩
  | cleanupFail claimed =>
    refine ⟨fun deleted => ?_, fun deleted => by simp [claimed.1] at deleted⟩
    cases render : s.renderStatus with
    | none => simp [render, claimed.1] at deleted
    | some terminal => cases terminal <;> simp [render, TerminalStatus.toJob] at deleted

/-- A claim that just moved its job to running renders it. -/
theorem Rendering.start {fence : Fence} (held : s.heldBy fence) (live : s.LiveUnrendered)
    (validating : s.status = .validating) : Rendering fence { s with status := .running } :=
  ⟨Nat.le_of_eq held.2.symm, fun _ => ⟨.inl rfl, live (by simp [validating])⟩⟩

/-- Every step keeps what a rendering claim may assume. -/
theorem Step.rendering {fence : Fence} (step : Step s event t) (rendering : s.Rendering fence) :
    t.Rendering fence := by
  have ⟨granted, running⟩ := rendering
  -- The steps out of a waiting or an ended status meet no rendering claim; those that end the lease or
  -- grant a new one leave none behind.
  have elsewhere : s.status ≠ .running → s.status ≠ .deleting → s.status ≠ .deleted → ¬ s.heldBy fence := by
    intro notRunning notDeleting notDeleted held
    rcases (running held).1 with status | status | status
    · exact notRunning status
    · exact notDeleting status
    · exact notDeleted status
  cases step with
  | housekeeping | work => exact rendering
  | uploadStarted status | uploadFinished status | uploadFailed status | start _ status =>
    exact ⟨granted, fun held => absurd held (elsewhere (by simp [status]) (by simp [status]) (by simp [status]))⟩
  | expire waiting =>
    refine ⟨granted, fun held => absurd held (elsewhere ?_ ?_ ?_)⟩ <;>
      rcases waiting with status | status <;> simp [status]
  | cancelAtOnce waiting =>
    refine ⟨granted, fun held => absurd held (elsewhere ?_ ?_ ?_)⟩ <;>
      exact fun status => by simp [status, JobRow.cancelsAtOnce] at waiting
  | cancelRunning status => exact ⟨granted, fun held => ⟨.inl status, (running held).2⟩⟩
  | @delete terminal ended =>
    refine ⟨granted, fun held => absurd held (elsewhere ?_ ?_ ?_)⟩ <;> rw [ended] <;>
      cases terminal <;> simp [TerminalStatus.toJob]
  | requeueSvg _ free => exact ⟨granted, fun held => by simp [heldBy, free] at held⟩
  | claim | reclaim =>
    refine ⟨Nat.le_succ_of_le granted, fun held => ?_⟩
    have same : s.generation + 1 = fence.generation := held.2
    omega
  | renew => exact ⟨granted, running⟩
  | finish => exact ⟨granted, fun held => by simp [heldBy] at held⟩
  | recoverQueued => exact ⟨granted, fun held => by simp [heldBy] at held⟩
  | cleanupClaim =>
    refine ⟨granted, fun held => ?_⟩
    obtain ⟨status, unrendered⟩ := running held
    refine ⟨.inr (.inl rfl), ?_⟩
    rcases status with status | status | status <;> simp [unrendered, status, JobStatus.terminal?]
  | cleanupFinish => exact ⟨granted, fun held => ⟨.inr (.inr rfl), (running held).2⟩⟩
  | cleanupFail claimed =>
    refine ⟨granted, fun held => ?_⟩
    have unrendered := (running held).2
    exact ⟨.inr (.inl (by simp [unrendered, claimed.1])), unrendered⟩

end Lifecycle

end LatexRenderer

/-! ## Jobs whose upload expired, and jobs that no source is kept for

A job that expired before it was uploaded never renders, also not when its deletion fails and it gets
its old status back. A job that a worker has claimed is never such a job.
-/

namespace LatexRenderer

namespace Lifecycle

/-- An expired job has its expiry as its outcome. -/
def ExpiryRecorded (s : Lifecycle) : Prop :=
  s.status = .expired → s.renderStatus = some .expired

/-- The job is deleted, or its upload expired and at most its deletion is under way. -/
def Released (s : Lifecycle) : Prop :=
  s.status = .deleted ∨ (s.status = .expired ∨ s.status = .deleting) ∧ s.renderStatus = some .expired

/-- The upload of the job was completed. -/
structure Uploaded (s : Lifecycle) : Prop where
  waiting : s.status ≠ .reserved ∧ s.status ≠ .uploading
  expired : s.status ≠ .expired
  outcome : s.renderStatus ≠ some .expired

variable {s t : Lifecycle} {event : LifecycleEvent}

theorem Fresh.expiryRecorded (fresh : s.Fresh) : s.ExpiryRecorded := by
  intro expired
  rcases fresh.status with status | status <;> simp [status] at expired

theorem Released.status (released : s.Released) :
    s.status = .deleting ∨ s.status = .deleted ∨ s.status = .expired := by
  rcases released with deleted | ⟨expired | deleting, _⟩
  · exact .inr (.inl deleted)
  · exact .inr (.inr expired)
  · exact .inl deleting

/-- What does not count as a reference is released. -/
theorem ExpiryRecorded.released (recorded : s.ExpiryRecorded)
    (gone : s.status = .deleted ∨ s.status = .expired) : s.Released := by
  rcases gone with deleted | expired
  · exact .inl deleted
  · exact .inr ⟨.inl expired, recorded expired⟩

/-- A job that was uploaded is only released by its deletion. -/
theorem Uploaded.deleted (uploaded : s.Uploaded) (released : s.Released) : s.status = .deleted := by
  rcases released with deleted | ⟨_, expired⟩
  · exact deleted
  · exact absurd expired uploaded.outcome

theorem TerminalStatus.toJob_eq_expired {terminal : TerminalStatus} (expired : terminal.toJob = .expired) :
    terminal = .expired := by
  cases terminal <;> first | rfl | cases expired

theorem Step.expiryRecorded (step : Step s event t) (recorded : s.ExpiryRecorded) : t.ExpiryRecorded := by
  intro expired
  cases step with
  | housekeeping | work | reclaim | renew => exact recorded expired
  | uploadStarted | uploadFinished | uploadFailed | cancelAtOnce | delete | requeueSvg | claim | start
  | recoverQueued | cleanupClaim | cleanupFinish => simp at expired
  | expire => rfl
  | cancelRunning running => simp [running] at expired
  | finish _ _ terminal _ _ ran => exact absurd (TerminalStatus.toJob_eq_expired expired) ran
  | cleanupFail claimed =>
    cases render : s.renderStatus with
    | none => simp [render, claimed.1] at expired
    | some terminal =>
      simp only [render, Option.map_some, Option.getD_some] at expired
      exact congrArg some (TerminalStatus.toJob_eq_expired expired)

theorem Step.released (step : Step s event t) (settled : s.DeletionSettled) (released : s.Released) :
    t.Released := by
  rcases released with deleted | ⟨status, outcome⟩
  · exact .inl ((step.deletionSettled settled).2 deleted)
  cases step with
  | housekeeping | work | reclaim | renew => exact .inr ⟨status, outcome⟩
  | uploadStarted other | uploadFinished other | uploadFailed other | cancelRunning other | claim other
  | start _ other => simp [other] at status
  | expire other | recoverQueued _ other => rcases other with other | other <;> simp [other] at status
  | cancelAtOnce other =>
    rcases status with status | status <;> simp [status, JobRow.cancelsAtOnce] at other
  | @delete terminal ended =>
    refine .inr ⟨.inr rfl, congrArg some (TerminalStatus.toJob_eq_expired ?_)⟩
    rw [← ended]
    refine status.resolve_right fun deleting => ?_
    rw [deleting] at ended
    cases terminal <;> cases ended
  | requeueSvg other => rcases other with other | other | other <;> simp [other] at status
  | finish _ leased => rcases status with status | status <;> simp [status] at leased
  | cleanupClaim => exact .inr ⟨.inr rfl, by simp [outcome]⟩
  | cleanupFinish => exact .inl rfl
  | cleanupFail => exact .inr ⟨.inl (by simp [outcome, TerminalStatus.toJob]), outcome⟩

theorem Step.uploaded (step : Step s event t) (uploaded : s.Uploaded) : t.Uploaded := by
  obtain ⟨⟨notReserved, notUploading⟩, notExpired, outcome⟩ := uploaded
  cases step with
  | housekeeping | work | reclaim | renew => exact ⟨⟨notReserved, notUploading⟩, notExpired, outcome⟩
  | uploadStarted waiting => exact absurd waiting notReserved
  | uploadFinished uploading | uploadFailed uploading => exact absurd uploading notUploading
  | expire waiting =>
    rcases waiting with reserved | uploading
    · exact absurd reserved notReserved
    · exact absurd uploading notUploading
  | cancelAtOnce => exact ⟨by simp, by simp, by simp⟩
  | cancelRunning running => exact ⟨by simp [running], by simp [running], outcome⟩
  | @delete terminal ended =>
    refine ⟨by simp, by simp, fun expired => notExpired ?_⟩
    rw [ended, Option.some.inj expired]
    rfl
  | requeueSvg => exact ⟨by simp, by simp, by simp⟩
  | claim | start | recoverQueued | cleanupFinish => exact ⟨by simp, by simp, outcome⟩
  | finish _ _ terminal _ _ ran =>
    exact ⟨by cases terminal <;> simp [TerminalStatus.toJob],
      fun expired => ran (TerminalStatus.toJob_eq_expired expired), fun expired => ran (Option.some.inj expired)⟩
  | cleanupClaim =>
    refine ⟨by simp, by simp, ?_⟩
    cases render : s.renderStatus with
    | some terminal => simpa [render] using outcome
    | none =>
      intro expired
      exact notExpired (JobStatus.terminal?_eq_some.mp (by simpa [render] using expired))
  | cleanupFail claimed =>
    cases render : s.renderStatus with
    | none => exact ⟨by simp [claimed.1], by simp [claimed.1], by simp⟩
    | some terminal =>
      refine ⟨?_, fun expired => outcome ?_, by simpa [render] using outcome⟩
      · cases terminal <;> simp [TerminalStatus.toJob]
      · rw [render, TerminalStatus.toJob_eq_expired expired]

theorem LiveUnrendered.uploaded (live : s.LiveUnrendered) (queued : s.status = .queued) : s.Uploaded := by
  have outcome := live (by simp [queued])
  exact ⟨by simp [queued], by simp [queued], by simp [outcome]⟩

end Lifecycle

end LatexRenderer
