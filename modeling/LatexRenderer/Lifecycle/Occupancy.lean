import LatexRenderer.Lifecycle.Refinement

/-! # Jobs that occupy the renderer

A job occupies the renderer while it is being validated or runs, and after it was canceled as long as
its lease is held. Only a claim lets a job start to, except that a failed removal can give a canceled
status back to a job whose lease was still held when it was marked for deletion.
-/

namespace LatexRenderer

open Machine

namespace Lifecycle

variable {s t : Lifecycle} {event : LifecycleEvent}

/-- The job is being validated or runs. -/
def Live (s : Lifecycle) : Prop :=
  s.status = .validating ∨ s.status = .running

/-- The job keeps the renderer from others. -/
def Occupies (s : Lifecycle) : Prop :=
  s.Live ∨ s.status = .canceled ∧ s.owner ≠ none

/-- A job that waits for its upload or in the queue holds no lease. -/
def WaitsFree (s : Lifecycle) : Prop :=
  s.status ∈ [.reserved, .uploading, .queued] → s.owner = none

/-- A failed removal does not make a job canceled whose lease is held. -/
def RestoresFree (s : Lifecycle) (event : LifecycleEvent) : Prop :=
  event = .cleanupFail → s.renderStatus = some .canceled → s.owner = none

theorem Fresh.waitsFree (fresh : s.Fresh) : s.WaitsFree :=
  fun _ => fresh.owner

theorem Fresh.not_occupies (fresh : s.Fresh) : ¬ s.Occupies := by
  rcases fresh.status with status | status <;> simp [Occupies, Live, status]

theorem Step.waitsFree (step : Step s event t) (free : s.WaitsFree) : t.WaitsFree := by
  intro waits
  cases step with
  | housekeeping | work | cancelRunning => exact free waits
  | renew held leased =>
    have leased := JobStatus.mem_leased.mp leased
    rcases leased with status | status | status <;> simp [status] at waits
  | uploadStarted waiting => exact free (by simp [waiting])
  | uploadFinished uploading | uploadFailed uploading => exact free (by simp [uploading])
  | requeueSvg _ released => exact released
  | reclaim leased =>
    have leased := JobStatus.mem_leased.mp leased
    rcases leased with status | status | status <;> simp [status] at waits
  | finish | recoverQueued => rfl
  | cleanupFail claimed =>
    have settled := restored_not_active s.renderStatus claimed.1
    simp only [JobStatus.mem_active, not_or] at settled
    simp [settled] at waits
  | expire | cancelAtOnce | delete | claim | start | cleanupClaim | cleanupFinish => simp at waits

/-- A live job after a step that claims nothing was live before it. -/
theorem Step.live_before (step : Step s event t) (unclaimed : event ≠ .claim) (live : t.Live) : s.Live := by
  cases step with
  | housekeeping | work | renew | reclaim => exact live
  | cancelRunning running => exact .inr running
  | start _ validating => exact .inl validating
  | claim => exact absurd rfl unclaimed
  | finish _ _ terminal => cases terminal <;> simp [Live, TerminalStatus.toJob] at live
  | cleanupFail claimed =>
    have settled := restored_not_active s.renderStatus claimed.1
    simp only [JobStatus.mem_active, not_or] at settled
    simp [Live, settled] at live
  | _ => simp [Live] at live

/-- A job that occupies the renderer after a step that claims nothing did so before it. -/
theorem Step.occupies_before (step : Step s event t) (unclaimed : event ≠ .claim) (free : s.WaitsFree)
    (restores : RestoresFree s event) (occupies : t.Occupies) : s.Occupies := by
  rcases occupies with live | ⟨canceled, held⟩
  · exact .inl (step.live_before unclaimed live)
  · cases step with
    | housekeeping | work | renew => exact .inr ⟨canceled, held⟩
    | cancelAtOnce waiting =>
      by_cases validating : s.status = .validating
      · exact .inl (.inl validating)
      · refine absurd (free ?_) held
        simpa [JobRow.cancelsAtOnce, validating] using waiting
    | cancelRunning running => exact .inl (.inr running)
    | reclaim _ before => exact .inr ⟨canceled, before⟩
    | finish => exact absurd rfl held
    | cleanupFail claimed =>
      refine absurd (restores rfl ?_) held
      cases kept : s.renderStatus with
      | none => simp [kept, claimed.1] at canceled
      | some terminal => cases terminal <;> simp [kept, TerminalStatus.toJob] at canceled ⊢
    | _ => simp at canceled

end Lifecycle

end LatexRenderer
