import LatexRenderer.Lifecycle.Occupancy
import LatexRenderer.Previews.Meters

/-! # Previews and jobs exclude one another

The claim of a preview sees every job that occupies the renderer, and the claim of a job sees every
running preview. Between the claims only a failed removal lets a job occupy the renderer again.
-/

namespace LatexRenderer

open Machine

/-- A queued request can still be claimed, and a running one can be found by a recovery run. -/
structure PreviewRow.Sound (row : PreviewRow) : Prop where
  attempt : row.status = .queued → row.attempt < maxPreviewAttempts
  leased : row.status = .running → row.leaseOwner ≠ none ∧ row.leaseExpiresAt ≠ none

/-- The invariant of the preview queue. -/
structure PreviewSystem.Sound (system : PreviewSystem) : Prop where
  distinct : system.db.Distinct
  free : ∀ record ∈ system.db.jobs, record.job.row.lifecycle.WaitsFree
  known : ∀ record ∈ system.db.jobs, record.job.row.id ∈ system.jobIds
  rows : ∀ record ∈ system.db.jobs, ∀ row ∈ record.previews, row.Sound
  pages : ∀ record ∈ system.db.jobs, (record.previews.map (·.page)).Nodup
  live : system.db.previewRunning = true → ∀ record ∈ system.db.jobs, ¬ record.job.row.lifecycle.Live

/-- While a preview runs, no job occupies the renderer. -/
def PreviewSystem.Exclusive (system : PreviewSystem) : Prop :=
  system.db.previewRunning = true → ∀ record ∈ system.db.jobs, ¬ record.job.row.lifecycle.Occupies

/-- While a preview runs, no failed removal makes a job canceled again whose lease is still held. -/
def RestoresFree (system : PreviewSystem) (action : PreviewAction) : Prop :=
  ∀ jobId now error, action = .transact (.job jobId (.failDeletion now error)) →
    system.db.previewRunning = true → ∀ record ∈ system.db.jobs, record.job.row.id = jobId →
      record.job.row.renderStatus = some .canceled → record.job.row.leaseOwner = none

theorem JobRow.occupiesRenderer_iff (row : JobRow) :
    row.occupiesRenderer = true ↔ row.lifecycle.Occupies := by
  simp [occupiesRenderer, Lifecycle.Occupies, Lifecycle.Live, lifecycle, Option.isSome_iff_ne_none]

section Rows

variable {limits : Limits} {action : DatabaseAction} {record new : JobRecord}

/-- Every statement keeps a request claimable or recoverable. -/
theorem PreviewRow.Change.sound {row after : PreviewRow} (change : row.Change action after)
    (sound : row.Sound) : after.Sound := by
  cases change with
  | requestedAgain updated =>
    obtain ⟨⟨_, spare, _⟩, eq⟩ := (Option.ite_none_right_eq_some ..).mp updated
    rw [← Option.some.inj eq]
    exact ⟨fun _ => spare, by simp⟩
  | claimed updated =>
    obtain ⟨_, eq⟩ := (Option.ite_none_right_eq_some ..).mp updated
    rw [← Option.some.inj eq]
    exact ⟨by simp, by simp⟩
  | recovered updated =>
    obtain ⟨⟨held, _⟩, eq⟩ := (Option.ite_none_right_eq_some ..).mp updated
    rw [← Option.some.inj eq]
    exact ⟨by simp [held.1], by simp⟩
  | reserved updated =>
    obtain ⟨_, eq⟩ := (Option.ite_none_right_eq_some ..).mp updated
    rw [← Option.some.inj eq]
    exact ⟨sound.attempt, sound.leased⟩
  | failed updated | published _ updated =>
    rcases (PreviewRow.finish_ended updated).2 with status | status <;>
      exact ⟨by simp [status], by simp [status]⟩

theorem JobRecord.Change.rows (change : record.Change limits action new)
    (sound : ∀ row ∈ record.previews, row.Sound) : ∀ row ∈ new.previews, row.Sound := by
  cases change.previews with
  | same _ same => rwa [same]
  | cleared _ cleared => simp [cleared]
  | appended _ sequence page timestamp _ _ rows =>
    intro row member
    rw [rows] at member
    rcases List.mem_append.mp member with older | added
    · exact sound row older
    · rw [List.mem_singleton.mp added]
      exact ⟨fun _ => Nat.zero_lt_succ 2, by simp [PreviewRow.inserted]⟩
  | updated _ _ _ updated changes =>
    exact update?_forall updated (fun _ _ changed => (changes changed).sound) sound

theorem JobRecord.Change.pages (change : record.Change limits action new)
    (distinct : (record.previews.map (·.page)).Nodup) : (new.previews.map (·.page)).Nodup := by
  cases change.previews with
  | same _ same => rwa [same]
  | cleared _ cleared => simp [cleared]
  | appended _ sequence page timestamp _ unknown rows =>
    rw [rows]
    exact nodup_map_append distinct fun row member => (unknown row member).2
  | updated _ _ _ updated changes =>
    rw [update?_map updated fun changed => (changes changed).frame.2]
    exact distinct

end Rows

section Step

variable {limits : Limits} {system next : PreviewSystem} {statement : DatabaseAction}

/-- A preview that runs after a transaction ran before it, or was claimed while the renderer was free. -/
theorem PreviewSystem.Makes.running_before (makes : system.Makes statement)
    (ran : statement.run limits system.db = some next.db) (running : next.db.previewRunning = true) :
    system.db.previewRunning = true ∨
      statement.event = .housekeeping ∧ ∀ record ∈ system.db.jobs, ¬ record.job.row.lifecycle.Occupies := by
  cases added : PreviewMeter.running.adds statement with
  | zero =>
    refine .inl ?_
    by_contra idle
    have before := (PreviewSystem.usage_running system).mpr (by simpa using idle)
    have after := DatabaseAction.run_previewWeight_le .running ran
    rw [added] at after
    refine absurd ((PreviewSystem.usage_running next).mp ?_) (by simp [running])
    exact Nat.le_zero.mp (Nat.le_trans after (Nat.le_of_eq before))
  | succ =>
    cases makes with
    | claim idle =>
      refine .inr ⟨rfl, fun record member occupies => ?_⟩
      have clear := List.any_eq_false.mp (Bool.or_eq_false_iff.mp idle).2 record member
      exact clear ((JobRow.occupiesRenderer_iff _).mpr occupies)
    | other elsewhere => simp [PreviewMeter.adds_seeing .running system.db elsewhere] at added
    | _ => cases added

/-- What no job does before a transaction that runs beside a preview, no job does after it. -/
private theorem excluded_after {P : Lifecycle → Prop} (makes : system.Makes statement)
    (ran : statement.run limits system.db = some next.db) (running : next.db.previewRunning = true)
    (implied : ∀ {s}, P s → s.Occupies) (fresh : ∀ {s : Lifecycle}, s.Fresh → ¬ P s)
    (before : system.db.previewRunning = true → ∀ record ∈ system.db.jobs, ¬ P record.job.row.lifecycle)
    (keeps : ∀ {record new}, record ∈ system.db.jobs → record.Change limits statement new →
      statement.jobId? = some record.job.row.id → statement.event ≠ .claim →
        P new.job.row.lifecycle → P record.job.row.lifecycle) :
    ∀ record ∈ next.db.jobs, ¬ P record.job.row.lifecycle := by
  have clear : ∀ record ∈ system.db.jobs, ¬ P record.job.row.lifecycle := by
    rcases makes.running_before ran running with ran | ⟨_, free⟩
    · exact before ran
    · exact fun record member held => free record member (implied held)
  intro record member
  rcases (DatabaseAction.run_jobs ran).records member with older | ⟨old, within, change, named⟩ | ⟨row, created, _, rfl⟩
  · exact clear record older
  · refine fun held => clear old within (keeps within change named (fun claims => ?_) held)
    rcases makes.running_before ran running with ran | ⟨quiet, _⟩
    · simp [makes.claim_idle change claims] at ran
    · simp [quiet] at claims
  · exact fresh created.fresh

theorem JobRecord.Change.step {record new : JobRecord} (change : record.Change limits statement new) :
    new.job.row.lifecycle = record.job.row.lifecycle ∨
      Lifecycle.Step record.job.row.lifecycle statement.event new.job.row.lifecycle := by
  rcases change.follows with rfl | ⟨_, step⟩
  · exact .inl rfl
  · exact .inr step

/-- Only the record of a failed removal is a failed cleanup. -/
private theorem PreviewAction.Commits.fails {action : PreviewAction}
    (commits : action.Commits limits system next statement) (failing : statement.event = .cleanupFail) :
    ∃ jobId now error, statement = .job jobId (.failDeletion now error) ∧ action = .transact statement := by
  have asked := commits.asked
  cases action with
  | transact action =>
    obtain ⟨_, eq⟩ := (Option.ite_none_left_eq_some ..).mp asked
    obtain rfl := Option.some.inj eq
    unfold Database.seeingPreviews at failing ⊢
    split at failing
    · cases failing
    · cases failing
    · cases action with
      | job jobId action =>
        cases action with
        | failDeletion now error => exact ⟨jobId, now, error, rfl, rfl⟩
        | worker fence operation => cases operation <;> cases failing
        | _ => cases failing
      | _ => cases failing
  | register jobId fence operation =>
    obtain rfl := Option.some.inj asked
    cases operation <;> cases failing
  | enqueue jobId sequence page timestamp cutoff =>
    have checked := ok_of_toOption (Option.join_eq_some_iff.mp asked)
    obtain ⟨_, rfl | ⟨prior, rfl⟩⟩ := PreviewSystem.request_makes checked <;> cases failing
  | claim =>
    obtain ⟨_, _, rfl⟩ := Option.map_eq_some_iff.mp asked
    cases failing
  | reserve | publish =>
    obtain rfl := Option.some.inj asked
    cases failing

theorem PreviewSystem.Sound.run {action : PreviewAction} (sound : system.Sound)
    (ran : action.run limits system = some next) : next.Sound := by
  rcases PreviewAction.run_commits ran with ⟨_, rfl⟩ | ⟨statement, commits⟩
  · exact sound
  have changes := DatabaseAction.run_jobs commits.ran
  refine ⟨(DatabaseAction.run_moves commits.ran sound.distinct).distinct, ?_, ?_, ?_, ?_, fun running => ?_⟩
  · intro record member
    rcases changes.records member with older | ⟨old, within, change, _⟩ | ⟨row, created, _, rfl⟩
    · exact sound.free record older
    · rcases change.step with same | step
      · rw [same]
        exact sound.free old within
      · exact step.waitsFree (sound.free old within)
    · exact created.fresh.waitsFree
  · intro record member
    rw [commits.jobIds, List.mem_append, Option.mem_toList]
    rcases changes.records member with older | ⟨old, within, change, _⟩ | ⟨row, _, named, rfl⟩
    · exact .inr (sound.known record older)
    · rw [change.follows.id_eq]
      exact .inr (sound.known old within)
    · exact .inl named
  · intro record member
    rcases changes.records member with older | ⟨old, within, change, _⟩ | ⟨row, created, _, rfl⟩
    · exact sound.rows record older
    · exact change.rows (sound.rows old within)
    · simp
  · intro record member
    rcases changes.records member with older | ⟨old, within, change, _⟩ | ⟨row, created, _, rfl⟩
    · exact sound.pages record older
    · exact change.pages (sound.pages old within)
    · simp
  · refine excluded_after commits.makes commits.ran running .inl
      (fun fresh live => fresh.not_occupies (.inl live)) sound.live ?_
    intro record new _ change _ unclaimed live
    rcases change.step with same | step
    · rwa [same] at live
    · exact step.live_before unclaimed live

theorem PreviewSystem.Exclusive.run {action : PreviewAction} (exclusive : system.Exclusive)
    (sound : system.Sound) (restores : RestoresFree system action)
    (ran : action.run limits system = some next) : next.Exclusive := by
  rcases PreviewAction.run_commits ran with ⟨_, rfl⟩ | ⟨statement, commits⟩
  · exact exclusive
  intro running
  refine excluded_after commits.makes commits.ran running id Lifecycle.Fresh.not_occupies exclusive ?_
  intro record new member change named unclaimed occupies
  rcases change.step with same | step
  · rwa [same] at occupies
  · refine step.occupies_before unclaimed (sound.free record member) (fun failing => ?_) occupies
    rcases commits.makes.running_before commits.ran running with before | ⟨quiet, _⟩
    · obtain ⟨jobId, now, error, rfl, asked⟩ := commits.fails failing
      exact restores jobId now error asked before record member (Option.some.inj named).symm
    · simp [quiet] at failing

theorem previewSystem_sound {system : PreviewSystem} (reached : Reachable (previewMachine limits) system) :
    system.Sound := by
  refine reached.induction ?_ fun _ taken sound => sound.run taken
  rintro start ⟨jobs, sources, _⟩
  exact ⟨⟨by simp [jobs], by simp [sources]⟩, by simp [jobs], by simp [jobs], by simp [jobs], by simp [jobs],
    by simp [jobs]⟩

/-- In a run that meets the condition, previews and jobs exclude one another. -/
theorem previewSystem_exclusive {system : PreviewSystem}
    (reached : Reachable ((previewMachine limits).restrict RestoresFree) system) : system.Exclusive := by
  refine reached.induction ?_ fun before taken exclusive =>
    exclusive.run (previewSystem_sound before.of_restrict) taken.2 taken.1
  rintro start ⟨jobs, _⟩ _
  simp [jobs]

end Step

/-- What the claims of previews and jobs promise in one state: what excludes what, how much may wait, and
that the oldest waiting request is next. -/
structure PreviewExclusion (limits : Limits) (system : PreviewSystem) : Prop where
  single : (system.db.previewRequests.filter (·.row.status == .running)).length ≤ 1
  exclusive : (∃ request ∈ system.db.previewRequests, request.row.status = .running) →
    ∀ record ∈ system.db.jobs, record.job.row.occupiesRenderer = false
  refused : ∀ record ∈ system.db.jobs, record.job.row.occupiesRenderer = true →
    ∀ workerId timestamp, system.claim limits workerId timestamp = none
  attempts : ∀ request ∈ system.db.previewRequests, request.row.status = .queued →
    request.row.attempt < maxPreviewAttempts
  leased : ∀ request ∈ system.db.previewRequests, request.row.status = .running →
    request.row.leaseOwner ≠ none ∧ request.row.leaseExpiresAt ≠ none
  waiting : system.db.waitingPreviews ≤ maxWaitingPreviews
  owned : ∀ userId, system.db.ownedWaitingPreviews userId ≤ maxOwnedPreviews
  progress : (∀ request ∈ system.db.previewRequests, request.row.status ≠ .running) →
    (∀ record ∈ system.db.jobs, record.job.row.occupiesRenderer = false) →
    (∃ request ∈ system.db.previewRequests, request.row.status = .queued) →
    ∃ oldest ∈ system.db.previewRequests, oldest.row.status = .queued ∧
      (∀ request ∈ system.db.previewRequests, request.row.status = .queued → oldest.age ≤ request.age) ∧
      ∀ workerId timestamp, ∃ next claimed, oldest.row.claim workerId timestamp = some claimed ∧
        system.claim limits workerId timestamp = some (next, ⟨oldest.jobId, claimed⟩)

section Promises

variable {limits : Limits} {system : PreviewSystem}

theorem Database.previewRunning_iff {db : Database} :
    db.previewRunning = true ↔ ∃ request ∈ db.previewRequests, request.row.status = .running := by
  simp only [previewRunning, JobRecord.previewRunning, List.any_eq_true, beq_iff_eq, mem_previewRequests]
  constructor
  · rintro ⟨record, member, row, within, running⟩
    exact ⟨⟨record.job.row.id, row⟩, ⟨record, member, rfl, within⟩, running⟩
  · rintro ⟨request, ⟨record, member, _, within⟩, running⟩
    exact ⟨record, member, request.row, within, running⟩

/-- The requests of a kind are counted job by job. -/
theorem Database.countP_previewRequests (db : Database) (counts : PreviewRow → Bool) :
    db.previewRequests.countP (counts ·.row) = total (·.previews.countP counts) db.jobs := by
  rw [previewRequests, List.countP_flatMap, total]
  congr 1
  exact List.map_congr_left fun record _ => List.countP_map

/-- A claim finds every other occupant of the renderer. -/
theorem PreviewSystem.claim_refused {record : JobRecord} (member : record ∈ system.db.jobs)
    (occupies : record.job.row.occupiesRenderer = true) (workerId : String) (timestamp : Timestamp) :
    system.claim limits workerId timestamp = none := by
  have busy : system.db.previewsBusy = true := by
    rw [Database.previewsBusy, Bool.or_eq_true, List.any_eq_true]
    exact .inr ⟨record, member, occupies⟩
  simp [claim, busy]

/-- A statement on a request reaches it through its job and its number. -/
theorem Database.updatePreview_reaches {db : Database} {record : JobRecord} {row new : PreviewRow}
    {change : PreviewRow → Option PreviewRow} (distinct : db.Distinct) (member : record ∈ db.jobs)
    (numbered : (record.previews.map (·.sequence)).Nodup) (within : row ∈ record.previews)
    (changed : change row = some new) :
    ∃ next, db.updateJob record.job.row.id (·.updatePreview row.sequence change) = some next := by
  obtain ⟨previews, updated⟩ := exists_update?_of_nodup numbered within changed
  have reached : record.updatePreview row.sequence change = some { record with previews := previews } := by
    rw [JobRecord.updatePreview, updated]
    rfl
  obtain ⟨jobs, found⟩ := exists_update?_of_nodup distinct.jobs member reached
  exact ⟨{ db with jobs := jobs }, by rw [updateJob, found]; rfl⟩

/-- While the renderer is free, the oldest queued request is claimed. -/
theorem PreviewSystem.claim_oldest (reached : Reachable (previewMachine limits) system)
    (free : system.db.previewsBusy = false)
    (queued : ∃ request ∈ system.db.previewRequests, request.row.status = .queued) :
    ∃ oldest ∈ system.db.previewRequests, oldest.row.status = .queued ∧
      (∀ request ∈ system.db.previewRequests, request.row.status = .queued → oldest.age ≤ request.age) ∧
      ∀ workerId timestamp, ∃ next claimed, oldest.row.claim workerId timestamp = some claimed ∧
        system.claim limits workerId timestamp = some (next, ⟨oldest.jobId, claimed⟩) := by
  obtain ⟨request, member, waiting⟩ := queued
  have sound := previewSystem_sound reached
  cases first : system.db.nextPreview? with
  | none =>
    have empty := List.argmin_eq_none.mp first
    have listed : request ∈ system.db.previewRequests.filter (·.row.status == .queued) :=
      List.mem_filter.mpr ⟨member, beq_iff_eq.mpr waiting⟩
    simp [empty] at listed
  | some oldest =>
    obtain ⟨within, isQueued⟩ := List.mem_filter.mp (List.argmin_mem first)
    have isQueued := beq_iff_eq.mp isQueued
    refine ⟨oldest, within, isQueued, fun other among queued => ?_, fun workerId timestamp => ?_⟩
    · have listed : other ∈ system.db.previewRequests.filter (·.row.status == .queued) :=
        List.mem_filter.mpr ⟨among, beq_iff_eq.mpr queued⟩
      exact List.le_of_mem_argmin listed first
    · obtain ⟨record, job, named, row⟩ := Database.mem_previewRequests.mp within
      have attempt := (sound.rows record job oldest.row row).attempt isQueued
      obtain ⟨claimed, claiming⟩ : ∃ claimed, oldest.row.claim workerId timestamp = some claimed :=
        ⟨_, if_pos ⟨isQueued, attempt⟩⟩
      have numbered := ((sound_of_reachable ((previewMachine_simulates limits).reachable reached)).jobs
        record job).distinct
      obtain ⟨db, updated⟩ := Database.updatePreview_reaches sound.distinct job numbered row claiming
      rw [named] at updated
      have statement : DatabaseAction.run limits system.db
          (.claimPreview oldest.jobId oldest.row.sequence workerId timestamp) = some db := updated
      refine ⟨{ system with
        db := db
        documents := system.documents.filter (keepsDocument db) }, claimed, claiming, ?_⟩
      simp [claim, free, first, claiming, commit, DatabaseAction.newJobId?, statement]

end Promises

/-- In a run that meets the condition, previews and jobs exclude one another, the queue stays within its
bounds and the oldest request is never stuck. -/
theorem preview_exclusion {limits : Limits} {system : PreviewSystem}
    (reached : Reachable ((previewMachine limits).restrict RestoresFree) system) :
    PreviewExclusion limits system := by
  have all := reached.of_restrict
  have sound := previewSystem_sound all
  have bounded := (previewMachine_metered limits).bounded all
  refine ⟨?_, fun running record member => ?_, fun record member => PreviewSystem.claim_refused member,
    ?_, ?_, bounded .waiting, fun userId => ?_, fun idle clear queued => ?_⟩
  · rw [← List.countP_eq_length_filter]
    have counted := system.db.countP_previewRequests (·.status == .running)
    have single : system.usage .running ≤ 1 := bounded .running
    simp only [PreviewSystem.usage, JobRecord.previewWeight, PreviewMeter.concerns, if_true] at single
    exact Nat.le_trans (Nat.le_of_eq counted) single
  · rw [← Bool.not_eq_true, JobRow.occupiesRenderer_iff]
    exact previewSystem_exclusive reached (Database.previewRunning_iff.mpr running) record member
  · intro request member queued
    obtain ⟨record, job, _, row⟩ := Database.mem_previewRequests.mp member
    exact (sound.rows record job request.row row).attempt queued
  · intro request member running
    obtain ⟨record, job, _, row⟩ := Database.mem_previewRequests.mp member
    exact (sound.rows record job request.row row).leased running
  · rw [← PreviewSystem.usage_owned]
    exact bounded (.owned userId)
  · refine PreviewSystem.claim_oldest all ?_ queued
    have quiet : system.db.previewRunning = false := by
      rw [← Bool.not_eq_true, Database.previewRunning_iff]
      rintro ⟨request, member, running⟩
      exact idle request member running
    rw [Database.previewsBusy, quiet, Bool.false_or, List.any_eq_false]
    exact fun record member => by simp [clear record member]

/-- A job is uploaded, rendered and published, and its second page is requested. -/
def renderedPreview : List PreviewAction :=
  [.transact (.createRender ⟨"job_1", "source_1", "user_1", "sa_1", "key_1", "1", 5, 0, 0, 600000, [.pdf]⟩),
    .transact (.source "source_1" (.uploadStarted 1)), .transact (.job "job_1" (.uploadStarted 1)),
    .transact (.source "source_1" (.uploadFinished 2 3600002 ["main.tex"])),
    .transact (.job "job_1" (.uploadFinished 2)),
    .transact (.job "job_1" (.claimNext "worker_1" 3 33 none false)),
    .transact (.job "job_1" (.worker ⟨"worker_1", 1⟩ (.startRunning 4))),
    .register "job_1" ⟨"worker_1", 1⟩
      (.finalize ⟨0, false, ""⟩ [⟨"artifact_1", .pdf, "result.pdf", 1, 7⟩] 5) 3,
    .enqueue "job_1" 1 2 6 0]

/-- A preview runs, in a run without a failed removal. -/
theorem preview_exclusion_running :
    ∃ system : PreviewSystem, system.db.previewRunning = true ∧ PreviewExclusion exampleLimits system := by
  have replayed : (replay? (PreviewAction.run exampleLimits) {}
      (renderedPreview ++ [.claim "worker_1" 7])).any (·.db.previewRunning) = true := by decide
  obtain ⟨system, run, check⟩ := exists_run_of_replay? replayed
  have allowed := run.restrict RestoresFree (by simp [renderedPreview, RestoresFree])
  exact ⟨system, check, preview_exclusion ⟨{}, _, ⟨rfl, rfl, rfl, rfl, rfl, rfl⟩, allowed⟩⟩

/-- Another job is canceled while it is being validated and marked for deletion before its worker lets
go. A preview is claimed, and then the removal of the job's files fails. -/
def restoredBesidePreview : List PreviewAction :=
  renderedPreview ++
    [.transact (.createRenderFromSource ticketTexts
        ⟨"job_2", "source_1", "user_1", "sa_1", "key_1", "1", "main.tex", 7, none, [.pdf], 1⟩),
      .transact (.job "job_2" (.claimNext "worker_1" 8 38 none false)),
      .transact (.job "job_2" (.cancel 9)), .transact (.job "job_2" (.markDeleting 10)),
      .claim "worker_1" 11, .transact (.job "job_2" (.claimDeletion ⟨12, 0, false, false⟩)),
      .transact (.job "job_2" (.failDeletion 13 "EBUSY"))]

/-- Without the condition a canceled job with a held lease and a running preview meet. -/
theorem preview_exclusion_fails :
    ¬ ∀ system, Reachable (previewMachine exampleLimits) system → PreviewExclusion exampleLimits system := by
  intro excluded
  have replayed : (replay? (PreviewAction.run exampleLimits) {} restoredBesidePreview).any (fun system =>
      system.db.previewRunning && system.db.jobs.any (·.job.row.occupiesRenderer)) = true := by decide
  obtain ⟨system, run, check⟩ := exists_run_of_replay? replayed
  simp only [Bool.and_eq_true, List.any_eq_true] at check
  obtain ⟨running, record, member, occupies⟩ := check
  have promise := excluded system ⟨{}, _, ⟨rfl, rfl, rfl, rfl, rfl, rfl⟩, run⟩
  have free := promise.exclusive (Database.previewRunning_iff.mp running) record member
  simp [occupies] at free

end LatexRenderer
