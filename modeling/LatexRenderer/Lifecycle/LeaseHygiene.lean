import LatexRenderer.Lifecycle.Refinement

/-! # Lease hygiene

A lease is held only in a status in which its owner or a recovery run can still release it, as long as
no deletion takes a job whose lease is held. `markDeleting` and the cleanup claim do not look at the
lease, so a job canceled while it was being validated can be deleted under its worker.
-/

namespace LatexRenderer

open Machine

namespace Lifecycle

/-- The lease columns agree with the status. -/
structure LeaseInvariant (s : Lifecycle) : Prop where
  leased : s.owner ≠ none → s.status ∈ JobStatus.leased
  held : s.status = .validating ∨ s.status = .running → s.owner ≠ none
  expiry : s.owner ≠ none → s.expires ≠ none

/-- The two deletions take only jobs without a lease. -/
def DeletesReleased (s : Lifecycle) (event : LifecycleEvent) : Prop :=
  event = .delete ∨ event = .cleanupClaim → s.owner = none

theorem Fresh.leaseInvariant {s : Lifecycle} (fresh : s.Fresh) : s.LeaseInvariant where
  leased held := absurd fresh.owner held
  held live := by
    rcases fresh.status with status | status <;> simp [status] at live
  expiry held := absurd fresh.owner held

/-- A job whose status admits no lease holds none. -/
theorem LeaseInvariant.free {s : Lifecycle} (inv : s.LeaseInvariant)
    (unleased : s.status ∉ JobStatus.leased) : s.owner = none := by
  by_contra held
  exact unleased (inv.leased held)

/-- A job without a lease keeps the invariant in any status that needs none. -/
private theorem LeaseInvariant.of_free {s : Lifecycle} (free : s.owner = none)
    (idle : s.status ≠ .validating ∧ s.status ≠ .running) : s.LeaseInvariant where
  leased held := absurd free held
  held live := (live.elim idle.1 idle.2).elim
  expiry held := absurd free held

/-- Every step that deletes no leased job keeps the invariant. -/
theorem Step.leaseInvariant {s t : Lifecycle} {event : LifecycleEvent} (step : Step s event t)
    (released : DeletesReleased s event) (inv : s.LeaseInvariant) : t.LeaseInvariant := by
  cases step with
  | housekeeping => exact inv
  | uploadStarted waiting => exact .of_free (inv.free (by simp [waiting])) (by simp)
  | uploadFinished uploading => exact .of_free (inv.free (by simp [uploading])) (by simp)
  | uploadFailed uploading => exact .of_free (inv.free (by simp [uploading])) (by simp)
  | expire waiting =>
    exact .of_free (inv.free (by rcases waiting with status | status <;> simp [status])) (by simp)
  | cancelAtOnce => exact ⟨fun _ => by simp, fun live => by simp at live, inv.expiry⟩
  | cancelRunning => exact ⟨inv.leased, inv.held, inv.expiry⟩
  | delete => exact .of_free (released (.inl rfl)) (by simp)
  | requeueSvg ended free => exact .of_free free (by simp)
  | claim => exact ⟨fun _ => by simp, fun _ => by simp, fun _ => by simp⟩
  | reclaim leased => exact ⟨fun _ => leased, fun _ => by simp, fun _ => by simp⟩
  | work => exact inv
  | renew => exact ⟨inv.leased, inv.held, fun _ => by simp⟩
  | start held => exact ⟨fun _ => by simp, fun _ => by simp [held.1], inv.expiry⟩
  | finish _ _ terminal => exact .of_free rfl (by cases terminal <;> simp [TerminalStatus.toJob])
  | recoverQueued => exact .of_free rfl (by simp)
  | cleanupClaim => exact .of_free (released (.inr rfl)) (by simp)
  | cleanupFinish claimed => exact .of_free (inv.free (by simp [claimed.1])) (by simp)
  | cleanupFail claimed =>
    have settled := restored_not_active s.renderStatus claimed.1
    simp only [JobStatus.mem_active, not_or] at settled
    exact .of_free (inv.free (by simp [claimed.1])) settled.2.2.2

end Lifecycle

/-- The condition under which leases stay clean: a job that is marked for deletion, or claimed by the
cleanup script, holds no lease. -/
def DeletesReleased (job : Job) (action : JobAction) : Prop :=
  job.row.lifecycle.DeletesReleased action.event

theorem leaseInvariant_of_reachable {maxOutputBytes : Nat} {job : Job}
    (reached : Reachable ((jobMachine maxOutputBytes).restrict DeletesReleased) job) :
    job.row.lifecycle.LeaseInvariant := by
  refine reached.induction (P := fun job => job.row.lifecycle.LeaseInvariant) ?_ ?_
  · intro start inserted
    exact (Job.Inserted.fresh inserted).leaseInvariant
  · intro start action next _ taken inv
    exact (JobAction.run_step taken.1).leaseInvariant taken.2 inv

/-- What lease hygiene promises in one state: where a lease may be held, where it must be, who can
still release it, and that the row does not keep the worker awake for ever. -/
structure LeaseHygiene (maxOutputBytes : Nat) (job : Job) : Prop where
  leased : job.row.leaseOwner ≠ none → job.row.status ∈ JobStatus.leased
  held : job.row.status ∈ [.validating, .running] →
    job.row.leaseOwner ≠ none ∧ job.row.leaseExpiresAt ≠ none
  ownerReleases : ∀ owner ∈ job.row.leaseOwner, ∀ now, ∃ next,
    (JobAction.worker ⟨owner, job.row.leaseGeneration⟩ (.markCanceled now)).run maxOutputBytes job
      = some next ∧ next.row.leaseOwner = none
  expiryClaims : ∀ owner ∈ job.row.leaseOwner, ∃ expires ∈ job.row.leaseExpiresAt, ∀ now > expires,
    ∃ stale ∈ job.row.staleLease? now, ∀ workerId until', ∃ next,
      (JobAction.claimExpiredLease stale workerId now until').run maxOutputBytes job = some next
  demandEnds : ∃ actions next, Run (jobMachine maxOutputBytes) job actions next ∧ ¬ next.row.hasDemand

section Release

variable {maxOutputBytes : Nat} {job : Job} {owner : String}

/-- The owner of a lease in a leased status can mark the job canceled, which releases it. -/
theorem Job.markCanceled_releases (held : job.row.leaseOwner = some owner)
    (leased : job.row.status ∈ JobStatus.leased) (now : Timestamp) :
    ∃ next, job.markCanceled ⟨owner, job.row.leaseGeneration⟩ now = some next ∧
      next.row.leaseOwner = none ∧ next.row.status = .canceled := by
  obtain ⟨next, ran, row⟩ := updateStatus_of_row job
    (·.markCanceled ⟨owner, job.row.leaseGeneration⟩ now none) (if_pos ⟨⟨held, rfl⟩, leased⟩)
  exact ⟨next, ran, by rw [row], by rw [row]⟩

/-- A lease in a leased status is stale after its expiry, and what `staleLeases` finds can be claimed. -/
theorem Job.claimExpiredLease_possible {expires now : Timestamp}
    (held : job.row.leaseOwner = some owner) (leased : job.row.status ∈ JobStatus.leased)
    (until' : job.row.leaseExpiresAt = some expires) (expired : expires < now) :
    ∃ stale ∈ job.row.staleLease? now, ∀ recoverer later, ∃ next,
      job.updateColumns (·.claimExpiredLease stale recoverer now later) = some next := by
  refine ⟨⟨job.row.status, owner, expires, job.row.leaseGeneration, leased⟩, ?_, ?_⟩
  · simp only [JobRow.staleLease?, held, until', leased, dite_true, expired, if_true, Option.mem_def]
  · intro recoverer later
    obtain ⟨next, ran, _⟩ := updateColumns_of_row job
      (·.claimExpiredLease ⟨job.row.status, owner, expires, job.row.leaseGeneration, leased⟩
        recoverer now later) (if_pos ⟨rfl, held, until', rfl, Nat.le_of_lt expired⟩)
    exact ⟨next, ran⟩

/-- A job that holds no lease and is neither waiting nor live does not wake the worker. -/
private theorem no_demand {row : JobRow} (free : row.leaseOwner = none)
    (idle : row.status ∉ [.queued, .validating, .running]) : ¬ row.hasDemand := by
  rintro (live | held)
  · exact idle live
  · exact held free

end Release

/-- Under the condition, lease hygiene holds in every state of every run. -/
theorem lease_hygiene {maxOutputBytes : Nat} {job : Job}
    (reached : Reachable ((jobMachine maxOutputBytes).restrict DeletesReleased) job) :
    LeaseHygiene maxOutputBytes job := by
  have inv := leaseInvariant_of_reachable reached
  refine ⟨inv.leased, ?_, ?_, ?_, ?_⟩
  · intro live
    have held := inv.held (by simpa [JobRow.lifecycle] using live)
    exact ⟨held, inv.expiry held⟩
  · intro owner held now
    have some : job.row.leaseOwner ≠ none := by simp [Option.mem_def.mp held]
    obtain ⟨next, ran, free, _⟩ := Job.markCanceled_releases held (inv.leased some) now
    exact ⟨next, ran, free⟩
  · intro owner held
    have some : job.row.leaseOwner ≠ none := by simp [Option.mem_def.mp held]
    obtain ⟨expires, until'⟩ := Option.ne_none_iff_exists'.mp (inv.expiry some)
    refine ⟨expires, until', fun now expired => ?_⟩
    obtain ⟨stale, found, claimable⟩ :=
      Job.claimExpiredLease_possible held (inv.leased some) until' expired
    exact ⟨stale, found, fun workerId later => claimable _ later⟩
  · cases held : job.row.leaseOwner with
    | some owner =>
      have leased := inv.leased (by simp [JobRow.lifecycle, held])
      obtain ⟨next, ran, free, canceled⟩ := Job.markCanceled_releases held leased 0
      exact ⟨[.worker ⟨owner, job.row.leaseGeneration⟩ (.markCanceled 0)], next, .single ran,
        no_demand free (by simp [canceled])⟩
    | none =>
      have idle : job.row.status ≠ .validating ∧ job.row.status ≠ .running :=
        ⟨fun live => inv.held (.inl live) held, fun live => inv.held (.inr live) held⟩
      by_cases queued : job.row.status = .queued
      · obtain ⟨next, ran, row⟩ := Job.updateStatus_of_row job (·.cancel 0)
          (if_pos (by simp [queued]))
        refine ⟨[.cancel 0], next, .single ran, no_demand (by rw [row]; exact held) ?_⟩
        simp [row, queued, JobRow.cancelsAtOnce]
      · exact ⟨[], job, .nil job, no_demand held (by simp [queued, idle])⟩

/-- A job that a worker holds while it is being validated, in a run that meets the condition. -/
theorem lease_hygiene_validating :
    ∃ job, job.row.leaseOwner = some "worker_1" ∧ LeaseHygiene 10 job := by
  obtain ⟨job, run, check⟩ := jobMachine_run 10 { row := insertReserved exampleTicket }
    [.uploadStarted 1, .uploadFinished 2, .claimNext "worker_1" 3 33 none false]
    (fun job => job.row.leaseOwner == some "worker_1") (by decide)
  have allowed := run.restrict DeletesReleased (by
    simp [DeletesReleased, Lifecycle.DeletesReleased, JobAction.event])
  exact ⟨job, beq_iff_eq.mp check, lease_hygiene ⟨_, _, .reserved exampleTicket, allowed⟩⟩

/-- A worker claims the job, its user cancels it while it is being validated and deletes it, and the
cleanup script removes it before the worker lets go. -/
def deletedUnderItsWorker : List JobAction :=
  [.uploadStarted 1, .uploadFinished 2, .claimNext "worker_1" 3 33 none false, .cancel 4,
    .markDeleting 5, .claimDeletion ⟨6, 0, false, false⟩, .finishDeletion 7]

/-- Without the condition lease hygiene fails: the deleted row keeps its lease and its demand. -/
theorem lease_hygiene_fails :
    ¬ ∀ job, Reachable (jobMachine 10) job → LeaseHygiene 10 job := by
  intro clean
  obtain ⟨job, run, check⟩ := jobMachine_run 10 { row := insertReserved exampleTicket }
    deletedUnderItsWorker
    (fun job => job.row.status == .deleted && job.row.leaseOwner.isSome) (by decide)
  simp only [Bool.and_eq_true, beq_iff_eq] at check
  have reached : Reachable (jobMachine 10) job := ⟨_, _, .reserved exampleTicket, run⟩
  have leased := (clean job reached).leased (Option.isSome_iff_ne_none.mp check.2)
  simp [check.1] at leased

end LatexRenderer
