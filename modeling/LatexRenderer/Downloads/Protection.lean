import LatexRenderer.Admission.Transactions
import LatexRenderer.Downloads.Exclusion

/-! # What a download may rely on

No step removes the files of a job under lease, none gives a lease to a job that the cleanup script has
claimed, and a lease that is lost stays lost. A renewal is decided by the clock reading it was made with:
when that is not before the expiry, the download ends.
-/

namespace LatexRenderer

open Machine Lifecycle

/-- What every step does to the leases and their holders. -/
structure DownloadSystem.Continues (before after : DownloadSystem) : Prop where
  leases : ∀ lease ∈ after.leases, (∃ old ∈ before.leases, old.id = lease.id ∧ old.jobId = lease.jobId) ∨
    (∀ holder ∈ before.holders, holder.leaseId ≠ lease.id) ∧
      ∀ record ∈ before.db.jobs, record.job.row.id = lease.jobId → ¬ record.job.row.lifecycle.Gone
  holders : ∀ holder ∈ before.holders, ∃ later ∈ after.holders, later.leaseId = holder.leaseId ∧
    (holder.released = true → later.released = true)

section Steps

variable {limits : Limits} {system next : DownloadSystem}

namespace DownloadSystem

/-- Steps that leave the holders alone and create no lease. -/
private theorem Continues.of_kept (rows : LeasesKept system.leases next.leases)
    (holders : next.holders = system.holders) : system.Continues next where
  leases lease member := by
    obtain ⟨old, before, same, job, _⟩ := rows lease member
    exact .inl ⟨old, before, same, job⟩
  holders holder member := ⟨holder, by rwa [holders], rfl, id⟩

/-- A statement on a holder that does not take a release back. -/
private theorem Continues.updateHolder {leaseId : String} {change : LeaseHolder → Option LeaseHolder}
    (rows : LeasesKept system.leases next.leases)
    (updated : update? (·.leaseId == leaseId) change system.holders = some next.holders)
    (keeps : ∀ {holder new}, change holder = some new →
      new.leaseId = holder.leaseId ∧ (holder.released = true → new.released = true)) :
    system.Continues next := by
  have kept : system.Continues { next with holders := system.holders } := .of_kept rows rfl
  refine ⟨kept.leases, ?_⟩
  obtain ⟨before, holder, after, new, same, _, changed, renewed⟩ := update?_eq_some updated
  intro other member
  rw [same] at member
  rw [renewed]
  rcases List.mem_append.mp member with left | right
  · exact ⟨other, by simp [left], rfl, id⟩
  · rcases List.mem_cons.mp right with rfl | later
    · exact ⟨new, by simp, keeps changed⟩
    · exact ⟨other, by simp [later], rfl, id⟩

private theorem leasesKept_refl (leases : List DownloadLeaseRow) : LeasesKept leases leases :=
  .of_subset fun _ => id

theorem openDownload_continues {leaseId jobId relativePath : String} {cutoff : Timestamp}
    (sound : system.Sound)
    (opened : system.openDownload leaseId jobId relativePath cutoff = some next) :
    system.Continues next := by
  simp only [openDownload, Option.bind_eq_bind, Option.bind_eq_some_iff, Option.guard_eq_some',
    exists_const, Option.pure_def, Option.some.injEq, List.all_eq_true, bne_iff_ne] at opened
  obtain ⟨fresh, record, found, artifact, downloadable, rfl⟩ := opened
  refine ⟨fun lease member => ?_, fun holder member => ⟨holder, by simp [member], rfl, id⟩⟩
  rcases List.mem_append.mp member with older | new
  · exact .inl ⟨lease, older, rfl, rfl⟩
  · rw [List.mem_singleton.mp new]
    refine .inr ⟨fresh, fun other within same => ?_⟩
    have named : record.job.row.id = jobId := beq_iff_eq.mp (List.find?_some found :)
    obtain rfl := List.inj_on_of_nodup_map sound.distinct.jobs within (List.mem_of_find?_eq_some found)
      (same.trans named.symm)
    exact Job.not_gone_of_downloadable downloadable

theorem renew_continues {leaseId : String} (sound : system.Sound)
    (renewed : system.renew leaseId = some next) : system.Continues next := by
  simp only [renew, Option.bind_eq_bind, Option.bind_eq_some_iff] at renewed
  obtain ⟨holder, found, timestamp, read, renewed⟩ := renewed
  split at renewed
  next leases updated =>
    obtain ⟨holders, changed, rfl⟩ := Option.map_eq_some_iff.mp renewed
    refine Continues.updateHolder (sound.leases.renew found read updated).2 changed ?_
    rintro holder new ⟨⟩
    exact ⟨rfl, id⟩
  next =>
    obtain ⟨holders, changed, rfl⟩ := Option.map_eq_some_iff.mp renewed
    refine Continues.updateHolder (leasesKept_refl _) changed ?_
    rintro holder new ⟨⟩
    exact ⟨rfl, fun _ => rfl⟩

end DownloadSystem

/-- Every step continues the leases and their holders. -/
theorem DownloadAction.run_continues {action : DownloadAction} (sound : system.Sound)
    (ran : action.run limits system = some next) : system.Continues next := by
  cases action with
  | tick passed =>
    cases ran
    exact DownloadSystem.Continues.of_kept (DownloadSystem.leasesKept_refl _) rfl
  | transact action =>
    obtain ⟨_, changed⟩ := (Option.ite_none_left_eq_some ..).mp ran
    obtain ⟨_, _, rfl⟩ := Option.map_eq_some_iff.mp changed
    exact DownloadSystem.Continues.of_kept (DownloadSystem.leasesKept_refl _) rfl
  | openDownload leaseId jobId relativePath cutoff => exact DownloadSystem.openDownload_continues sound ran
  | heartbeat leaseId =>
    obtain ⟨holders, changed, rfl⟩ := Option.map_eq_some_iff.mp ran
    refine DownloadSystem.Continues.updateHolder (DownloadSystem.leasesKept_refl _) changed fun taken => ?_
    obtain ⟨_, eq⟩ := (Option.ite_none_right_eq_some ..).mp taken
    rw [← Option.some.inj eq]
    exact ⟨rfl, id⟩
  | renew leaseId => exact DownloadSystem.renew_continues sound ran
  | release leaseId =>
    obtain ⟨holders, changed, rfl⟩ := Option.map_eq_some_iff.mp ran
    refine DownloadSystem.Continues.updateHolder (DownloadSystem.leasesKept_refl _) changed ?_
    rintro holder new ⟨⟩
    exact ⟨rfl, fun _ => rfl⟩
  | deleteLease leaseId =>
    obtain ⟨_, eq⟩ := (Option.ite_none_right_eq_some ..).mp ran
    rw [← Option.some.inj eq]
    exact DownloadSystem.Continues.of_kept (.of_subset List.filter_sublist.subset) rfl
  | sweepLeases =>
    obtain ⟨run, _, rest⟩ := Option.bind_eq_some_iff.mp ran
    obtain ⟨_, _, swept⟩ := Option.bind_eq_some_iff.mp rest
    obtain rfl := Option.some.inj swept
    exact DownloadSystem.Continues.of_kept (.of_subset List.filter_sublist.subset) rfl
  | startCleanup | removeFiles | stopCleanup =>
    obtain ⟨_, eq⟩ := (Option.ite_none_right_eq_some ..).mp ran
    rw [← Option.some.inj eq]
    exact DownloadSystem.Continues.of_kept (DownloadSystem.leasesKept_refl _) rfl
  | claimJob jobId cutoff =>
    obtain ⟨run, _, guarded⟩ := Option.bind_eq_some_iff.mp ran
    obtain ⟨_, _, rest⟩ := Option.bind_eq_some_iff.mp guarded
    obtain ⟨record, _, cleaned⟩ := Option.bind_eq_some_iff.mp rest
    obtain ⟨_, _, rfl⟩ := Option.map_eq_some_iff.mp cleaned
    exact DownloadSystem.Continues.of_kept (DownloadSystem.leasesKept_refl _) rfl
  | finishJob | failJob =>
    obtain ⟨run, _, rest⟩ := Option.bind_eq_some_iff.mp ran
    obtain ⟨jobId, _, cleaned⟩ := Option.bind_eq_some_iff.mp rest
    obtain ⟨_, _, rfl⟩ := Option.map_eq_some_iff.mp cleaned
    exact DownloadSystem.Continues.of_kept (DownloadSystem.leasesKept_refl _) rfl

/-- A renewal whose reading is not before the expiry ends the download and changes no lease. -/
theorem DownloadSystem.renew_expired (sound : system.Sound) {holder : LeaseHolder}
    (member : holder ∈ system.holders) {timestamp : Timestamp} (read : holder.reading = some timestamp)
    {lease : DownloadLeaseRow} (within : lease ∈ system.leases) (own : lease.id = holder.leaseId)
    (expired : lease.expiresAt ≤ timestamp) (renewed : system.renew holder.leaseId = some next) :
    next.leases = system.leases ∧
      ∃ later ∈ next.holders, later.leaseId = holder.leaseId ∧ later.released = true := by
  simp only [renew, Option.bind_eq_bind, Option.bind_eq_some_iff] at renewed
  obtain ⟨found, first, instant, same, renewed⟩ := renewed
  have named : found.leaseId = holder.leaseId := beq_iff_eq.mp (List.find?_some first :)
  obtain rfl := List.inj_on_of_nodup_map sound.leases.holderIds (List.mem_of_find?_eq_some first) member named
  obtain rfl := Option.some.inj (read.symm.trans same)
  split at renewed
  next leases updated =>
    obtain ⟨row, _, before, keyed, changed, _⟩ := update?_of_nodup updated sound.leases.leaseIds
    obtain rfl := List.inj_on_of_nodup_map sound.leases.leaseIds before within (keyed.trans own.symm)
    obtain ⟨later, _⟩ := (Option.ite_none_right_eq_some ..).mp changed
    exact absurd later (Nat.not_lt.mpr expired)
  next =>
    obtain ⟨holders, changed, rfl⟩ := Option.map_eq_some_iff.mp renewed
    obtain ⟨_, new, _, keyed, taken, rows⟩ := update?_of_nodup changed sound.leases.holderIds
    cases taken
    exact ⟨rfl, _, (rows _).mpr (.inl rfl), keyed, rfl⟩

end Steps

/-- What a download may rely on in a state and in everything that may follow it. -/
structure DownloadProtection (limits : Limits) (system : DownloadSystem) : Prop where
  removal : ∀ jobId next, DownloadAction.run limits system (.removeFiles jobId) = some next →
    ∀ lease ∈ system.leases, lease.jobId ≠ jobId
  claimed : ∀ record ∈ system.db.jobs, record.job.row.deletionClaimed → ∀ action next,
    DownloadAction.run limits system action = some next →
      ∀ lease ∈ next.leases, lease.jobId ≠ record.job.row.id
  lost : ∀ holder ∈ system.holders, (∀ lease ∈ system.leases, lease.id ≠ holder.leaseId) →
    ∀ actions later, Run (downloadMachine limits) system actions later →
      ∀ lease ∈ later.leases, lease.id ≠ holder.leaseId
  expired : ∀ holder ∈ system.holders, ∀ timestamp ∈ holder.reading, ∀ lease ∈ system.leases,
    lease.id = holder.leaseId → lease.expiresAt ≤ timestamp → ∀ next,
      DownloadAction.run limits system (.renew holder.leaseId) = some next →
        next.leases = system.leases ∧
          ∃ later ∈ next.holders, later.leaseId = holder.leaseId ∧ later.released = true
  ended : ∀ holder ∈ system.holders, holder.released = true → ∀ actions later,
    Run (downloadMachine limits) system actions later →
      DownloadAction.run limits later (.renew holder.leaseId) = none

/-- Download leases exclude the removal of files, and what is lost stays lost. -/
theorem download_protection {limits : Limits} {system : DownloadSystem}
    (reached : Reachable (downloadMachine limits) system) : DownloadProtection limits system := by
  have sound := downloadSystem_sound reached
  refine ⟨?_, ?_, ?_, ?_, ?_⟩
  · intro jobId next removed
    obtain ⟨claimed, _⟩ := (Option.ite_none_right_eq_some ..).mp removed
    obtain ⟨run, present, same⟩ := (Option.any_eq_true ..).mp claimed
    exact (sound.cleanup run present).free jobId (beq_iff_eq.mp same)
  · intro record member removing action next ran lease within same
    have gone : record.job.row.lifecycle.Gone := .inl removing
    rcases (DownloadAction.run_continues sound ran).leases lease within with
      ⟨old, before, _, job⟩ | ⟨_, kept⟩
    · exact sound.free record member gone old before (job.trans same)
    · exact kept record member same.symm gone
  · intro holder member lost actions later run
    have stays := run.stable (P := fun s => (∃ known ∈ s.holders, known.leaseId = holder.leaseId) ∧
      ∀ lease ∈ s.leases, lease.id ≠ holder.leaseId) reached ?_ ⟨⟨holder, member, rfl⟩, lost⟩
    · exact stays.2
    intro before action after reached ran stays
    obtain ⟨⟨known, within, named⟩, gone⟩ := stays
    have continues := DownloadAction.run_continues (downloadSystem_sound reached) ran
    constructor
    · obtain ⟨next, after, same, _⟩ := continues.holders known within
      exact ⟨next, after, same.trans named⟩
    · intro lease present same
      rcases continues.leases lease present with ⟨old, before, id, _⟩ | ⟨fresh, _⟩
      · exact gone old before (id.trans same)
      · exact fresh known within (named.trans same.symm)
  · intro holder member timestamp read lease within own expired next renewed
    exact DownloadSystem.renew_expired sound member read within own expired renewed
  · intro holder member released actions later run
    have stays := run.stable (P := fun s => ∃ known ∈ s.holders, known.leaseId = holder.leaseId ∧
      known.released = true) reached ?_ ⟨holder, member, rfl, released⟩
    · obtain ⟨known, within, named, ended⟩ := stays
      have soundLater := downloadSystem_sound (run.reachable reached)
      cases renewed : DownloadAction.run limits later (.renew holder.leaseId) with
      | none => rfl
      | some next =>
        obtain ⟨found, first, rest⟩ := Option.bind_eq_some_iff.mp renewed
        obtain ⟨instant, read, _⟩ := Option.bind_eq_some_iff.mp rest
        have same : found.leaseId = holder.leaseId := beq_iff_eq.mp (List.find?_some first :)
        obtain rfl := List.inj_on_of_nodup_map soundLater.leases.holderIds
          (List.mem_of_find?_eq_some first) within (same.trans named.symm)
        rw [soundLater.ended found within ended] at read
        cases read
    intro before action after reached ran stays
    obtain ⟨known, within, named, ended⟩ := stays
    obtain ⟨next, after, same, kept⟩ :=
      (DownloadAction.run_continues (downloadSystem_sound reached) ran).holders known within
    exact ⟨next, after, same.trans named, kept ended⟩

/-- A job is uploaded, rendered and published. -/
def renderedJob : List DownloadAction :=
  [.transact (.createRender ⟨"job_1", "source_1", "user_1", "sa_1", "key_1", "1", 5, 0, 0, 600000, [.pdf]⟩),
    .transact (.source "source_1" (.uploadStarted 1)), .transact (.job "job_1" (.uploadStarted 1)),
    .transact (.source "source_1" (.uploadFinished 2 3600002 ["main.tex"])),
    .transact (.job "job_1" (.uploadFinished 2)),
    .transact (.job "job_1" (.claimNext "worker_1" 3 33 none false)),
    .transact (.job "job_1" (.worker ⟨"worker_1", 1⟩ (.startRunning 4))),
    .transact (.job "job_1" (.worker ⟨"worker_1", 1⟩
      (.finalize ⟨0, false, ""⟩ [⟨"artifact_1", .pdf, "result.pdf", 1, 7⟩] 5)))]

/-- A download under way is protected. -/
theorem download_protection_streaming :
    ∃ system : DownloadSystem, system.leases.length = 1 ∧ DownloadProtection exampleLimits system := by
  have replayed : (replay? (DownloadAction.run exampleLimits) {}
      (renderedJob ++ [.openDownload "download_1" "job_1" "result.pdf" 0])).any
        (fun system => system.leases.length == 1) = true := by decide
  obtain ⟨system, run, check⟩ := exists_run_of_replay? replayed
  exact ⟨system, beq_iff_eq.mp check, download_protection ⟨{}, _, ⟨rfl, rfl, rfl, rfl, rfl, rfl⟩, run⟩⟩

/-- A heartbeat reads the clock a moment before the lease expires, and its statement runs a moment after:
the expired lease is renewed under its id. -/
theorem download_lease_revived :
    ¬ ∀ system, Reachable (downloadMachine exampleLimits) system →
      ∀ lease ∈ system.leases, lease.expiresAt ≤ system.clock → ∀ action next,
        DownloadAction.run exampleLimits system action = some next →
          ∀ later ∈ next.leases, later.id = lease.id → later.expiresAt ≤ next.clock := by
  intro stays
  have replayed : (replay? (DownloadAction.run exampleLimits) {}
      (renderedJob ++ [.openDownload "download_1" "job_1" "result.pdf" 0, .tick 299999,
        .heartbeat "download_1", .tick 2])).any (fun system =>
      (system.leases.any fun lease => lease.id == "download_1" && decide (lease.expiresAt ≤ system.clock)) &&
        (DownloadAction.run exampleLimits system (.renew "download_1")).any fun next =>
          next.leases.any fun later => later.id == "download_1" && decide (next.clock < later.expiresAt))
      = true := by decide
  obtain ⟨system, run, check⟩ := exists_run_of_replay? replayed
  simp only [Bool.and_eq_true, List.any_eq_true, Option.any_eq_true, beq_iff_eq, decide_eq_true_eq] at check
  obtain ⟨⟨lease, member, named, expired⟩, next, renewed, later, present, same, live⟩ := check
  have old := stays system ⟨{}, _, ⟨rfl, rfl, rfl, rfl, rfl, rfl⟩, run⟩ lease member expired _ next renewed
    later present (same.trans named.symm)
  exact absurd live (Nat.not_lt.mpr old)

end LatexRenderer
