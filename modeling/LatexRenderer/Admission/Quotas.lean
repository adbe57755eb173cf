import LatexRenderer.Admission.Records

/-! # No reachable state exceeds a quota

The usage of each meter is a sum over the rows of the three tables. A transaction changes a row or two,
and where it adds weight it has first asked the meters for that much room, so the admission limits bound
every reachable state.
-/

namespace LatexRenderer

open Machine

/-- What a source adds to a meter. -/
def SourceRow.weight : Quota → SourceRow → Nat
  | .storage userId, row => if row.ownerUserId == userId && row.status != .deleted then row.size else 0
  | _, _ => 0

/-- What a cached tree adds to a meter. -/
def SourceTreeRow.weight : Quota → SourceTreeRow → Nat
  | .storage userId, row => if row.ownerUserId == userId then row.reservedBytes else 0
  | _, _ => 0

/-- What the admission checks read for a meter. -/
def Database.usage (db : Database) : Quota → Nat
  | .storage userId => db.storageUsageForUser userId
  | .queue => db.countActive
  | .userQueue userId => db.countActiveForUser userId
  | .accountQueue serviceAccountId => db.countActiveForServiceAccount serviceAccountId

/-- The limit of a meter. -/
def Limits.quota (limits : Limits) : Quota → Nat
  | .storage _ => limits.maxUserStorageBytes
  | .queue => limits.maxQueueLength
  | .userQueue _ => limits.maxUserActiveJobs
  | .accountQueue _ => maxAccountActiveJobs

/-- A deleted source has its deletion behind it. -/
def SourceRow.DeletionSettled (row : SourceRow) : Prop :=
  row.status = .deleted → row.deletionStatus = .deleted

/-- The invariant of the database. -/
structure Database.Sound (maxOutputBytes : Nat) (db : Database) : Prop where
  jobs : ∀ record ∈ db.jobs, record.Sound maxOutputBytes
  sources : ∀ row ∈ db.sources, row.DeletionSettled

private theorem no_source (rows : List SourceRow) {quota : Quota} (other : ∀ userId, quota ≠ .storage userId) :
    total (SourceRow.weight quota) rows = 0 := by
  refine total_eq_zero (fun row => ?_) _
  cases quota with
  | storage userId => exact absurd rfl (other userId)
  | _ => rfl

private theorem no_tree (rows : List SourceTreeRow) {quota : Quota}
    (other : ∀ userId, quota ≠ .storage userId) : total (SourceTreeRow.weight quota) rows = 0 := by
  refine total_eq_zero (fun row => ?_) _
  cases quota with
  | storage userId => exact absurd rfl (other userId)
  | _ => rfl

/-- The usage of a meter is the sum of the weights of all rows. -/
theorem Database.usage_eq (db : Database) (quota : Quota) :
    db.usage quota = total (JobRecord.weight quota) db.jobs + total (SourceRow.weight quota) db.sources +
      total (SourceTreeRow.weight quota) db.trees := by
  cases quota with
  | storage userId =>
    have jobs : total (·.job.row.storageBytes) (db.jobs.filter fun record =>
          record.job.row.userId == userId && record.job.row.status != .deleted) +
        total (·.previewBytes) (db.jobs.filter fun record => record.job.row.userId == userId) =
          total (JobRecord.weight (.storage userId)) db.jobs := by
      rw [total_filter, total_filter, total_add]
      congr 1
      funext record
      by_cases user : record.job.row.userId = userId <;>
        by_cases deleted : record.job.row.status = .deleted <;>
        simp [JobRecord.weight, JobRecord.bytes, user, deleted]
    have sources : total (·.size) (db.sources.filter fun row =>
        row.ownerUserId == userId && row.status != .deleted) =
          total (SourceRow.weight (.storage userId)) db.sources := total_filter ..
    have trees : total (·.reservedBytes) (db.trees.filter fun row => row.ownerUserId == userId) =
        total (SourceTreeRow.weight (.storage userId)) db.trees := total_filter ..
    change db.storageUsageForUser userId = _
    rw [← jobs, ← sources, ← trees, storageUsageForUser]
    omega
  | queue =>
    rw [no_source _ (by simp), no_tree _ (by simp)]
    refine (countP_eq_total ..).trans (congrArg (total · db.jobs) (funext fun record => ?_))
    by_cases active : record.job.row.status ∈ JobStatus.active <;> simp only [JobRecord.weight, active] <;> rfl
  | userQueue userId =>
    rw [no_source _ (by simp), no_tree _ (by simp)]
    refine (countP_eq_total ..).trans (congrArg (total · db.jobs) (funext fun record => ?_))
    simp only [JobRecord.weight, Bool.and_eq_true, beq_iff_eq, decide_eq_true_eq]
  | accountQueue serviceAccountId =>
    rw [no_source _ (by simp), no_tree _ (by simp)]
    refine (countP_eq_total ..).trans (congrArg (total · db.jobs) (funext fun record => ?_))
    simp only [JobRecord.weight, Bool.and_eq_true, beq_iff_eq, decide_eq_true_eq]

section Admission

variable {limits : Limits} {db : Database} {userId serviceAccountId : String} {bytes : Nat}

theorem assertStorage_admits (accepted : (assertStorage limits db userId bytes).toOption = some ()) :
    Admits db.usage limits.quota (storageGrowth userId bytes) := by
  unfold assertStorage at accepted
  split at accepted
  next => cases accepted
  next room =>
    rintro (user | _ | _ | _)
    · simp only [storageGrowth]
      split
      next same =>
        refine .inr ?_
        change db.storageUsageForUser user + bytes ≤ limits.maxUserStorageBytes
        rw [← same]
        omega
      next => exact .inl rfl
    · exact .inl rfl
    · exact .inl rfl
    · exact .inl rfl

/-- The admission checks find room for one more active job with these bytes. -/
theorem assertAccepting_admits {texts : AdmissionTexts}
    (accepted : (assertAccepting texts limits db userId serviceAccountId bytes).toOption = some ()) :
    Admits db.usage limits.quota (jobGrowth userId serviceAccountId bytes) := by
  unfold assertAccepting at accepted
  split at accepted
  · cases accepted
  split at accepted
  · cases accepted
  next queue =>
  split at accepted
  · cases accepted
  next account =>
  split at accepted
  · cases accepted
  next user =>
  rintro (other | _ | other | other)
  · exact assertStorage_admits accepted (.storage other)
  · refine .inr ?_
    change db.countActive + 1 ≤ limits.maxQueueLength
    omega
  · simp only [jobGrowth]
    split
    next same =>
      refine .inr ?_
      change db.countActiveForUser other + 1 ≤ limits.maxUserActiveJobs
      rw [← same]
      omega
    next => exact .inl rfl
  · simp only [jobGrowth]
    split
    next same =>
      refine .inr ?_
      change db.countActiveForServiceAccount other + 1 ≤ maxAccountActiveJobs
      rw [← same]
      omega
    next => exact .inl rfl

end Admission

section Sources

variable {row after : SourceRow}

/-- A guarded update of a source that keeps its owner and size, and a deleted source deleted. -/
private theorem guarded_source {p : Prop} [Decidable p] {changed : SourceRow}
    (updated : (if p then some changed else none) = some after)
    (same : changed.ownerUserId = row.ownerUserId ∧ changed.size = row.size)
    (settled : p → changed.DeletionSettled) (stays : p → row.status = .deleted → changed.status = .deleted) :
    after.DeletionSettled ∧ ∀ quota, after.weight quota ≤ row.weight quota := by
  obtain ⟨guarded, eq⟩ := (Option.ite_none_right_eq_some ..).mp updated
  rw [← Option.some.inj eq]
  refine ⟨settled guarded, fun quota => ?_⟩
  cases quota with
  | storage userId =>
    simp only [SourceRow.weight, same]
    by_cases deleted : row.status = .deleted
    · simp [deleted, stays guarded deleted]
    · split
      · rw [if_pos (by simp_all)]
      · exact Nat.zero_le _
  | _ => exact Nat.le_refl 0

private theorem transition_source {source : List SourceStatus} {target : SourceStatus} {now : Timestamp}
    {updates : SourceUpdates} (updated : row.transition source target now updates = some after)
    (live : .deleted ∉ source) (kept : target ≠ .deleted) :
    after.DeletionSettled ∧ ∀ quota, after.weight quota ≤ row.weight quota :=
  guarded_source updated ⟨rfl, rfl⟩ (fun _ deleted => absurd deleted kept)
    (fun member deleted => absurd (deleted ▸ member) live)

/-- Every statement on a source keeps its owner and size, and a deleted source deleted. -/
theorem SourceAction.run_source {action : SourceAction} (ran : action.run row = some after)
    (settled : row.DeletionSettled) :
    after.DeletionSettled ∧ ∀ quota, after.weight quota ≤ row.weight quota := by
  cases action with
  | uploadStarted | uploadFinished | uploadFailed =>
    exact transition_source ran (by simp) (by simp)
  | chunksStarted | stored =>
    simp only [SourceAction.run, SourceRow.transitionBeforeExpiry, Option.ite_none_right_eq_some] at ran
    exact transition_source ran.2 (by simp) (by simp)
  | claimUploadLease | releaseUploadLease | extendUploadLease | commitUploadOffset | endRetention =>
    exact guarded_source ran ⟨rfl, rfl⟩ (fun _ => settled) (fun _ => id)
  | completeUpload =>
    exact guarded_source ran ⟨rfl, rfl⟩ (fun _ => by simp [SourceRow.DeletionSettled])
      (fun guarded deleted => by simp [SourceRow.uploadHeldBy, deleted] at guarded)
  | markDeleting | expireReservation =>
    exact guarded_source ran ⟨rfl, rfl⟩ (fun _ => by simp [SourceRow.DeletionSettled])
      (fun guarded deleted => by simp [deleted] at guarded)
  | claimDeletion references now =>
    refine guarded_source ran ⟨rfl, rfl⟩ (fun _ => by simp [SourceRow.DeletionSettled]) ?_
    intro guarded deleted
    have finished := settled deleted
    simp [SourceRow.deletionDue, deleted, finished] at guarded
  | finishDeletion => exact guarded_source ran ⟨rfl, rfl⟩ (fun _ _ => rfl) (fun _ _ => rfl)
  | failDeletion =>
    exact guarded_source ran ⟨rfl, rfl⟩ (fun _ => by simp [SourceRow.DeletionSettled])
      (fun guarded deleted => by simp [deleted] at guarded)

end Sources

end LatexRenderer
