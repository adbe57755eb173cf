import LatexRenderer.Downloads.Leases
import LatexRenderer.Lifecycle.Deletion
import LatexRenderer.Admission.Records
import LatexRenderer.Retention.Effects

/-! # Download leases and the removal of a job's files exclude each other

The cleanup script deletes the expired leases before it claims a job, with the same old clock reading. So
the rows left all expire after that reading, and the claim, which looks for such rows, finds none at all.
From the claim on the job is not downloadable, and its last lease is gone.
-/

namespace LatexRenderer

open Machine Lifecycle

/-- What a run of the cleanup script relies on. -/
structure CleanupRun.Sound (jobs : List JobRecord) (leases : List DownloadLeaseRow) (clock : Timestamp)
    (run : CleanupRun) : Prop where
  past : run.now ≤ clock
  swept : run.swept = true → ∀ lease ∈ leases, run.now < lease.expiresAt
  claimed : ∀ jobId ∈ run.job,
    ∀ record ∈ jobs, record.job.row.id = jobId → record.job.row.lifecycle.UnderRemoval
  free : ∀ jobId ∈ run.job, ∀ lease ∈ leases, lease.jobId ≠ jobId

/-- The invariant of the system. -/
structure DownloadSystem.Sound (system : DownloadSystem) : Prop where
  distinct : system.db.Distinct
  leases : LeasesSound system.leases system.holders system.clock
  ended : ∀ holder ∈ system.holders, holder.released = true → holder.reading = none
  free : ∀ record ∈ system.db.jobs, record.job.row.lifecycle.Gone →
    ∀ lease ∈ system.leases, lease.jobId ≠ record.job.row.id
  cleanup : ∀ run ∈ system.cleanup, run.Sound system.db.jobs system.leases system.clock

section Frames

variable {jobs : List JobRecord} {leases after : List DownloadLeaseRow} {clock : Timestamp}
  {run : CleanupRun}

/-- A run goes on relying on rows that are kept. -/
theorem CleanupRun.Sound.kept (sound : run.Sound jobs leases clock) (rows : LeasesKept leases after) :
    run.Sound jobs after clock := by
  refine ⟨sound.past, fun swept lease member => ?_, sound.claimed, fun jobId claimed lease member => ?_⟩
  · obtain ⟨old, before, _, _, later⟩ := rows lease member
    exact Nat.lt_of_lt_of_le (sound.swept swept old before) later
  · obtain ⟨old, before, _, same, _⟩ := rows lease member
    rw [← same]
    exact sound.free jobId claimed old before

variable {system : DownloadSystem}

/-- Rows that are kept, with any change of their holders, keep the invariant. -/
theorem DownloadSystem.Sound.leases_kept (sound : system.Sound) {holders : List LeaseHolder}
    (rows : LeasesKept system.leases after) (leases : LeasesSound after holders system.clock)
    (ended : ∀ holder ∈ holders, holder.released = true → holder.reading = none) :
    DownloadSystem.Sound { system with leases := after, holders := holders } := by
  refine ⟨sound.distinct, leases, ended, ?_, fun run present => (sound.cleanup run present).kept rows⟩
  intro record member gone lease within
  obtain ⟨old, before, _, same, _⟩ := rows lease within
  rw [← same]
  exact sound.free record member gone old before

theorem DownloadSystem.updateHolder_sound {next : DownloadSystem} {leaseId : String}
    {change : LeaseHolder → Option LeaseHolder} (sound : system.Sound)
    (updated : system.updateHolder leaseId change = some next)
    (keeps : ∀ {holder new}, change holder = some new → new.leaseId = holder.leaseId ∧
      (new.reading = none ∨ new.reading = some system.clock ∧ new.released = false)) :
    next.Sound := by
  obtain ⟨holders, changed, rfl⟩ := Option.map_eq_some_iff.mp updated
  refine sound.leases_kept (.of_subset fun _ => id) ?_ ?_
  · refine sound.leases.updateHolder changed fun taken => ?_
    obtain ⟨same, none | ⟨now, _⟩⟩ := keeps taken
    · exact ⟨same, .inl none⟩
    · exact ⟨same, .inr now⟩
  · refine update?_forall changed (fun _ _ taken _ released => ?_) sound.ended
    obtain ⟨_, none | ⟨_, held⟩⟩ := keeps taken
    · exact none
    · rw [held] at released
      cases released

end Frames

section Steps

variable {limits : Limits} {system next : DownloadSystem}

theorem DatabaseAction.event_foreign {action : DatabaseAction} (foreign : action.cleansJob = false) :
    action.event.isCleanup = false := by
  cases action with
  | job jobId action =>
    cases action with
    | worker fence operation => cases operation <;> rfl
    | claimDeletion | finishDeletion | failDeletion => cases foreign
    | _ => rfl
  | _ => rfl

theorem Job.not_gone_of_downloadable {job : Job} {cutoff : Timestamp} {path : String}
    {artifact : ArtifactRow} (found : job.getDownloadable cutoff path = some artifact) :
    ¬ job.row.lifecycle.Gone := by
  have held := List.find?_some found
  simp only [available, Bool.and_eq_true, Bool.or_eq_true, decide_eq_true_eq, List.mem_cons,
    List.not_mem_nil, or_false] at held
  have status := held.2.1.1
  rintro (⟨deleting, _⟩ | deleted)
  · simp [show job.row.status = .deleting from deleting] at status
  · simp [show job.row.status = .deleted from deleted] at status

theorem DownloadSystem.transact_sound {action : DatabaseAction} (sound : system.Sound)
    (transacted : system.transact limits action = some next) : next.Sound := by
  obtain ⟨guarded, changed⟩ := (Option.ite_none_left_eq_some ..).mp transacted
  obtain ⟨db, ran, rfl⟩ := Option.map_eq_some_iff.mp changed
  simp only [Bool.or_eq_true, not_or, Bool.not_eq_true] at guarded
  obtain ⟨foreign, unknown⟩ := guarded
  have moves := DatabaseAction.run_moves ran sound.distinct
  have silent := DatabaseAction.event_foreign foreign
  refine ⟨moves.distinct, sound.leases, sound.ended, ?_, fun run present => ?_⟩
  · intro record member gone lease within
    rcases moves.jobs record member with ⟨old, before, follows⟩ | ⟨fresh, _⟩
    · rw [follows.id_eq]
      refine sound.free old before ?_ lease within
      rcases follows with rfl | ⟨_, step⟩
      · exact gone
      · exact step.gone_before (fun claim => by simp [claim, LifecycleEvent.isCleanup] at silent) gone
    · exact absurd gone fresh.not_gone
  · have relied := sound.cleanup run present
    refine ⟨relied.past, relied.swept, ?_, relied.free⟩
    intro jobId claimed record member same
    rcases moves.jobs record member with ⟨old, before, follows⟩ | ⟨_, named, _⟩
    · have removing := relied.claimed jobId claimed old before (follows.id_eq.symm.trans same)
      rcases follows with rfl | ⟨_, step⟩
      · exact removing
      · obtain ⟨status, deletion⟩ := step.deleting_frame silent removing.1
        exact ⟨status.trans removing.1, deletion.trans removing.2⟩
    · -- The script names its job, so no new job has its id.
      have running : system.cleanup = some run := present
      have known : system.knowsJob jobId = true := by
        simp [DownloadSystem.knowsJob, running, Option.mem_def.mp claimed]
      rw [named, same, Option.any_some, known] at unknown
      cases unknown

theorem DownloadSystem.openDownload_sound {leaseId jobId relativePath : String} {cutoff : Timestamp}
    (sound : system.Sound)
    (opened : system.openDownload leaseId jobId relativePath cutoff = some next) : next.Sound := by
  simp only [openDownload, Option.bind_eq_bind, Option.bind_eq_some_iff, Option.guard_eq_some',
    exists_const, Option.pure_def, Option.some.injEq, List.all_eq_true, bne_iff_ne] at opened
  obtain ⟨fresh, record, found, artifact, downloadable, rfl⟩ := opened
  have kept := Job.not_gone_of_downloadable downloadable
  have placed := List.mem_of_find?_eq_some found
  have named : record.job.row.id = jobId := beq_iff_eq.mp (List.find?_some found :)
  refine ⟨sound.distinct, sound.leases.create fresh rfl, ?_, ?_, fun run present => ?_⟩
  · intro holder member released
    rcases List.mem_append.mp member with older | new
    · exact sound.ended holder older released
    · rw [List.mem_singleton.mp new]
  · intro other member gone lease within
    rcases List.mem_append.mp within with older | new
    · exact sound.free other member gone lease older
    · rw [List.mem_singleton.mp new]
      intro same
      obtain rfl := List.inj_on_of_nodup_map sound.distinct.jobs member placed (same.symm.trans named.symm)
      exact kept gone
  · have relied := sound.cleanup run present
    refine ⟨relied.past, fun swept lease within => ?_, relied.claimed, fun claimedId claimed lease within => ?_⟩
    · rcases List.mem_append.mp within with older | new
      · exact relied.swept swept lease older
      · rw [List.mem_singleton.mp new]
        have past := relied.past
        have positive : 0 < artifactDownloadLeaseMs := by decide
        exact Nat.lt_of_le_of_lt past (Nat.lt_add_of_pos_right positive)
    · rcases List.mem_append.mp within with older | new
      · exact relied.free claimedId claimed lease older
      · rw [List.mem_singleton.mp new]
        rintro rfl
        exact kept (.inl (relied.claimed jobId claimed record placed named))

/-- The end of a removal leaves the job gone, or gives it back. -/
theorem DownloadSystem.cleanJob_sound {jobId : String} {action : JobAction} {run : CleanupRun}
    (sound : system.Sound) (present : system.cleanup = some run)
    (ends : action.event = .cleanupFinish ∨ action.event = .cleanupFail)
    (cleaned : system.cleanJob limits jobId none action run = some next) : next.Sound := by
  obtain ⟨db, updated, rfl⟩ := Option.map_eq_some_iff.mp cleaned
  have moves : Database.Moves action.event none (fun _ => False) system.db db :=
    Database.updateJob_moves updated sound.distinct JobRecord.act_follows
  refine ⟨moves.distinct, sound.leases, sound.ended, ?_, fun run' started => ?_⟩
  · intro record member gone lease within
    rcases moves.jobs record member with ⟨old, before, follows⟩ | ⟨fresh, _⟩
    · rw [follows.id_eq]
      refine sound.free old before ?_ lease within
      rcases follows with rfl | ⟨_, step⟩
      · exact gone
      · exact step.gone_before (fun claim => by simp [claim] at ends) gone
    · exact absurd gone fresh.not_gone
  · obtain rfl := Option.some.inj started
    have relied := sound.cleanup run present
    exact ⟨relied.past, relied.swept, by simp, by simp⟩

/-- The claim takes a job that has no lease at all: the rows that the script left expire later than its
reading, and the claim finds none of those. -/
theorem DownloadSystem.claimJob_sound {jobId : String} {cutoff : Timestamp} (sound : system.Sound)
    (claimed : system.claimJob limits jobId cutoff = some next) : next.Sound := by
  simp only [claimJob, Option.bind_eq_bind, Option.bind_eq_some_iff, Option.guard_eq_some',
    exists_const] at claimed
  obtain ⟨run, present, ⟨swept, _⟩, record, found, cleaned⟩ := claimed
  obtain ⟨db, updated, rfl⟩ := Option.map_eq_some_iff.mp cleaned
  have moves : Database.Moves .cleanupClaim none (fun _ => False) system.db db :=
    Database.updateJob_moves updated sound.distinct JobRecord.act_follows
  have relied := sound.cleanup run present
  obtain ⟨jobs, changed, rfl⟩ := Option.map_eq_some_iff.mp updated
  obtain ⟨old, new, before, keyed, acted, rows⟩ := update?_of_nodup changed sound.distinct.jobs
  obtain ⟨_, job, ran, rfl⟩ := JobRecord.act_eq_some acted
  have row := Job.updateStatus_row ran
  simp only [JobRow.claimDeletion, Option.ite_none_right_eq_some, Option.some.injEq] at row
  obtain ⟨⟨_, inactive, _⟩, same⟩ := row
  have removing : job.row.lifecycle.UnderRemoval := by
    rw [← same]
    exact ⟨rfl, rfl⟩
  have none : ∀ lease ∈ system.leases, lease.jobId ≠ jobId := by
    intro lease member belongs
    simp only [DownloadSystem.hasActiveTransfers, List.any_eq_false] at inactive
    exact inactive lease member (by simp [belongs, relied.swept swept lease member])
  have named : job.row.id = jobId := by
    rw [← same]
    exact keyed
  refine ⟨moves.distinct, sound.leases, sound.ended, ?_, fun run' started => ?_⟩
  · intro other member gone lease within
    rcases (rows other).mp member with rfl | ⟨older, _⟩
    · rw [show (JobRecord.job _).row.id = jobId from named]
      exact none lease within
    · exact sound.free other older gone lease within
  · obtain rfl := Option.some.inj started
    refine ⟨relied.past, relied.swept, ?_, ?_⟩
    · rintro _ ⟨⟩ other member same
      rcases (rows other).mp member with rfl | ⟨_, apart⟩
      · exact removing
      · exact absurd same apart
    · rintro _ ⟨⟩
      exact none

/-- The sweep leaves the rows that expire after the reading. -/
theorem DownloadSystem.sweepLeases_sound (sound : system.Sound)
    (swept : system.sweepLeases = some next) : next.Sound := by
  simp only [sweepLeases, Option.bind_eq_bind, Option.bind_eq_some_iff, Option.guard_eq_some',
    exists_const, Option.pure_def, Option.some.injEq] at swept
  obtain ⟨run, present, _, rfl⟩ := swept
  have rows : LeasesKept system.leases
      (system.leases.filter fun lease => decide (lease.expiresAt > run.now)) :=
    .of_subset (List.filter_sublist.subset)
  have fewer := sound.leases_kept rows (sound.leases.fewer List.filter_sublist) sound.ended
  refine ⟨fewer.distinct, fewer.leases, fewer.ended, fewer.free, fun run' started => ?_⟩
  obtain rfl := Option.some.inj started
  have relied := (sound.cleanup run present).kept rows
  refine ⟨relied.past, fun _ lease member => ?_, relied.claimed, relied.free⟩
  simpa using (List.mem_filter.mp member).2

/-- A renewal keeps the invariant, whether it finds its row or not. -/
theorem DownloadSystem.renew_sound {leaseId : String} (sound : system.Sound)
    (renewed : system.renew leaseId = some next) : next.Sound := by
  simp only [renew, Option.bind_eq_bind, Option.bind_eq_some_iff] at renewed
  obtain ⟨holder, found, timestamp, read, renewed⟩ := renewed
  split at renewed
  next leases updated =>
    obtain ⟨rows, kept⟩ := sound.leases.renew found read updated
    refine DownloadSystem.updateHolder_sound (sound.leases_kept kept rows sound.ended) renewed ?_
    rintro holder new ⟨⟩
    exact ⟨rfl, .inl rfl⟩
  next =>
    refine DownloadSystem.updateHolder_sound sound renewed ?_
    rintro holder new ⟨⟩
    exact ⟨rfl, .inl rfl⟩

theorem DownloadAction.run_sound {action : DownloadAction} (sound : system.Sound)
    (ran : action.run limits system = some next) : next.Sound := by
  cases action with
  | tick passed =>
    cases ran
    refine ⟨sound.distinct, sound.leases.tick passed, sound.ended, sound.free, fun run present => ?_⟩
    have relied := sound.cleanup run present
    exact { relied with past := Nat.le_trans relied.past (Nat.le_add_right ..) }
  | transact action => exact DownloadSystem.transact_sound sound ran
  | openDownload leaseId jobId relativePath cutoff => exact DownloadSystem.openDownload_sound sound ran
  | heartbeat leaseId =>
    refine DownloadSystem.updateHolder_sound sound ran fun changed => ?_
    obtain ⟨⟨held, _⟩, eq⟩ := (Option.ite_none_right_eq_some ..).mp changed
    rw [← Option.some.inj eq]
    exact ⟨rfl, .inr ⟨rfl, held⟩⟩
  | renew leaseId => exact DownloadSystem.renew_sound sound ran
  | release leaseId =>
    refine DownloadSystem.updateHolder_sound sound ran ?_
    rintro holder new ⟨⟩
    exact ⟨rfl, .inl rfl⟩
  | deleteLease leaseId =>
    obtain ⟨_, eq⟩ := (Option.ite_none_right_eq_some ..).mp ran
    rw [← Option.some.inj eq]
    exact sound.leases_kept (.of_subset (List.filter_sublist.subset)) (sound.leases.fewer List.filter_sublist)
      sound.ended
  | startCleanup =>
    obtain ⟨_, eq⟩ := (Option.ite_none_right_eq_some ..).mp ran
    rw [← Option.some.inj eq]
    refine { sound with cleanup := fun run present => ?_ }
    obtain rfl := Option.some.inj present
    exact ⟨Nat.le_refl _, by simp, by simp, by simp⟩
  | sweepLeases => exact DownloadSystem.sweepLeases_sound sound ran
  | claimJob jobId cutoff => exact DownloadSystem.claimJob_sound sound ran
  | removeFiles jobId =>
    obtain ⟨_, eq⟩ := (Option.ite_none_right_eq_some ..).mp ran
    rw [← Option.some.inj eq]
    exact sound
  | finishJob =>
    obtain ⟨run, present, rest⟩ := Option.bind_eq_some_iff.mp ran
    obtain ⟨jobId, _, cleaned⟩ := Option.bind_eq_some_iff.mp rest
    exact DownloadSystem.cleanJob_sound sound present (.inl rfl) cleaned
  | failJob error =>
    obtain ⟨run, present, rest⟩ := Option.bind_eq_some_iff.mp ran
    obtain ⟨jobId, _, cleaned⟩ := Option.bind_eq_some_iff.mp rest
    exact DownloadSystem.cleanJob_sound sound present (.inr rfl) cleaned
  | stopCleanup =>
    obtain ⟨_, eq⟩ := (Option.ite_none_right_eq_some ..).mp ran
    rw [← Option.some.inj eq]
    exact { sound with cleanup := fun run present => nomatch present }

end Steps

theorem downloadSystem_sound {limits : Limits} {system : DownloadSystem}
    (reached : Reachable (downloadMachine limits) system) : system.Sound := by
  refine reached.induction ?_ ?_
  · rintro system ⟨jobs, sources, _, leases, holders, cleanup⟩
    refine ⟨⟨by simp [jobs], by simp [sources]⟩, ?_, by simp [holders], by simp [jobs], by simp [cleanup]⟩
    exact ⟨by simp [leases], by simp [holders], by simp [leases], by simp [leases], by simp [holders]⟩
  · intro before action after _ ran sound
    exact DownloadAction.run_sound sound ran

end LatexRenderer
