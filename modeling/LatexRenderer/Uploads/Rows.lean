import LatexRenderer.Lifecycle.Refinement
import LatexRenderer.Uploads.Custody

/-! # What the steps on a ticket do to its job and its source

A row is `uploading` only between the start of an upload and its end, its release or the recovery of its
claim, and no other statement puts a row back to waiting for its upload.
-/

namespace LatexRenderer

open Machine

/-- Nothing but an upload makes a job wait for its upload. -/
theorem Lifecycle.Step.waiting_before {s t : Lifecycle} {event : LifecycleEvent} (step : Step s event t)
    (other : event ≠ .upload) (waiting : t.status ∈ [.reserved, .uploading]) : s.status = t.status := by
  have active : t.status ∈ JobStatus.active := by
    simp only [List.mem_cons, List.not_mem_nil, or_false] at waiting
    rcases waiting with status | status <;> simp [status]
  cases step with
  | housekeeping | work | reclaim | renew | cancelRunning => rfl
  | uploadStarted | uploadFinished | uploadFailed => exact absurd rfl other
  | expire | cancelAtOnce | delete | requeueSvg | claim | start | recoverQueued | cleanupClaim
  | cleanupFinish => simp at waiting
  | finish _ _ terminal => exact absurd active terminal.toJob_not_active
  | cleanupFail claimed => exact absurd active (restored_not_active _ claimed.1)

section Rows

variable {maxOutputBytes : Nat} {job after : Job} {source next : SourceRow} {now : Timestamp}

theorem JobAction.waiting_before {action : JobAction} (other : UploadAction.otherJob action = true)
    (ran : action.run maxOutputBytes job = some after)
    (waiting : after.row.status ∈ [.reserved, .uploading]) : job.row.status = after.row.status := by
  refine (JobAction.run_step ran).waiting_before ?_ waiting
  cases action with
  | uploadStarted | uploadFinished | uploadFailed => cases other
  | worker fence operation => cases operation <;> simp [JobAction.event]
  | _ => simp [JobAction.event]

/-- An upload moves the status of a job from one given status to another. -/
private theorem updateStatus_transition {origin : List JobStatus} {target : JobStatus}
    {queuedAt : Option Timestamp}
    (ran : job.updateStatus (·.transitionJob origin target queuedAt now) = some after) :
    job.row.status ∈ origin ∧ after.row.status = target := by
  obtain ⟨member, moved⟩ := JobRow.transitionJob_step (Job.updateStatus_row ran)
  exact ⟨member, congrArg Lifecycle.status moved⟩

theorem JobAction.uploadStarted_status (ran : run maxOutputBytes job (.uploadStarted now) = some after) :
    job.row.status = .reserved ∧ after.row.status = .uploading := by
  obtain ⟨member, status⟩ := updateStatus_transition ran
  exact ⟨List.mem_singleton.mp member, status⟩

theorem JobAction.uploadFinished_status (ran : run maxOutputBytes job (.uploadFinished now) = some after) :
    job.row.status = .uploading ∧ after.row.status = .queued := by
  obtain ⟨member, status⟩ := updateStatus_transition ran
  exact ⟨List.mem_singleton.mp member, status⟩

theorem JobAction.expireReservation_status {cutoff : Timestamp} {claimActive : Bool}
    (ran : run maxOutputBytes job (.expireReservation now cutoff claimActive) = some after) :
    job.row.status ∈ [.reserved, .uploading] ∧ after.row.status = .expired := by
  obtain ⟨guarded, eq⟩ := (Option.ite_none_right_eq_some ..).mp (Job.updateStatus_row ran)
  exact ⟨guarded.1, by rw [← Option.some.inj eq]⟩

theorem SourceRow.transition_status {origin : List SourceStatus} {target : SourceStatus}
    {updates : SourceUpdates} (moved : source.transition origin target now updates = some next) :
    source.status ∈ origin ∧ next.status = target := by
  obtain ⟨member, eq⟩ := (Option.ite_none_right_eq_some ..).mp moved
  exact ⟨member, by rw [← Option.some.inj eq]⟩

/-- Nothing but the ticket's own steps makes a source wait for its upload. -/
theorem SourceAction.uploading_before {action : SourceAction}
    (other : UploadAction.otherSource action = true) (ran : action.run source = some next)
    (uploading : next.status = .uploading) : source.status = .uploading := by
  cases action with
  | uploadStarted | uploadFinished | uploadFailed | chunksStarted | stored | expireReservation =>
    cases other
  | claimUploadLease | releaseUploadLease | extendUploadLease | commitUploadOffset =>
    obtain ⟨_, eq⟩ := (Option.ite_none_right_eq_some ..).mp ran
    rw [← Option.some.inj eq] at uploading
    exact uploading
  | completeUpload | markDeleting | endRetention | claimDeletion | finishDeletion | failDeletion =>
    obtain ⟨guarded, eq⟩ := (Option.ite_none_right_eq_some ..).mp ran
    rw [← Option.some.inj eq] at uploading
    simp_all

theorem JobAction.uploadFailed_status (job : Job) :
    ((run maxOutputBytes job (.uploadFailed now)).getD job).row.status ≠ .uploading := by
  cases ran : run maxOutputBytes job (.uploadFailed now) with
  | none =>
    intro uploading
    obtain ⟨after, updated, _⟩ := job.updateStatus_of_row (·.restoreReservedAfterUploadFailure now)
      (if_pos uploading)
    exact Option.some_ne_none _ (updated.symm.trans ran)
  | some after =>
    obtain ⟨_, eq⟩ := (Option.ite_none_right_eq_some ..).mp (Job.updateStatus_row ran)
    simp [← Option.some.inj eq]

/-- A failed upload leaves a job that is not uploading as it is. -/
theorem JobAction.uploadFailed_of_ne (other : job.row.status ≠ .uploading) :
    (run maxOutputBytes job (.uploadFailed now)).getD job = job := by
  have none : run maxOutputBytes job (.uploadFailed now) = none := by
    simp [run, Job.updateStatus, JobRow.restoreReservedAfterUploadFailure, other]
  rw [none]
  rfl

theorem SourceRow.restoreReserved_status (source : SourceRow) :
    ((source.restoreReserved now).getD source).status ≠ .uploading := by
  by_cases uploading : source.status = .uploading <;>
    simp [restoreReserved, transition, uploading]

end Rows

/-- What a present row became under a statement that had to succeed. -/
theorem mapM_mem {α β : Type} {f : α → Option β} {before : Option α} {after : Option β} {b : β}
    (mapped : before.mapM f = some after) (member : b ∈ after) : ∃ a ∈ before, f a = some b := by
  cases before with
  | none =>
    cases mapped
    cases member
  | some a =>
    obtain ⟨_, found, rfl⟩ := Option.map_eq_some_iff.mp mapped
    cases member
    exact ⟨a, rfl, found⟩

namespace UploadSystem

variable {s : UploadSystem} {maxOutputBytes : Nat}

/-- The job or the source is in the middle of an upload. -/
def uploading (s : UploadSystem) : Prop :=
  (∃ job ∈ s.job, job.row.status = .uploading) ∨ ∃ source ∈ s.source, source.status = .uploading

/-- The rows that the steps on a ticket write. -/
def durable (s : UploadSystem) : Option NonceRow × Option Job × Option SourceRow :=
  (s.nonce, s.job, s.source)

theorem restoreRows_not_uploading (timestamp : Timestamp) :
    ¬ (s.restoreRows maxOutputBytes timestamp).uploading := by
  rintro (⟨job, restored, uploading⟩ | ⟨source, restored, uploading⟩)
  · obtain ⟨before, _, rfl⟩ := Option.map_eq_some_iff.mp restored
    exact JobAction.uploadFailed_status before uploading
  · obtain ⟨before, _, rfl⟩ := Option.map_eq_some_iff.mp restored
    exact before.restoreReserved_status uploading

end UploadSystem

end LatexRenderer
