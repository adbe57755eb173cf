import LatexRenderer.Admission.Transactions
import LatexRenderer.Model.PreviewQueue
import LatexRenderer.Retention.Effects

/-! # What a transaction does to the jobs and their preview requests

A transaction leaves rows out, appends a fresh job, or changes the one record it is about in a way that
its kind determines. What a transaction of the preview queue has checked before is said once, in `Makes`.
-/

namespace LatexRenderer

open Machine

/-- The job that a transaction is about. -/
def DatabaseAction.jobId? : DatabaseAction → Option String
  | .retrySvg input => some input.jobId
  | .job jobId _ | .requestPreview jobId .. | .requestPreviewAgain jobId .. | .claimPreview jobId ..
  | .recoverPreview jobId .. | .failPreview jobId .. | .reservePreview jobId _
  | .publishPreview jobId .. => some jobId
  | _ => none

/-- What a transaction does to the record it is about. -/
inductive JobRecord.Change (limits : Limits) : DatabaseAction → JobRecord → JobRecord → Prop
  | acted {jobId : String} {action : JobAction} {record next : JobRecord}
      (acted : record.act limits.maxOutputBytes action = some next) :
      Change limits (.job jobId action) record next
  | retried {input : SvgRetryInput} {requeue : RequeueInput} {record : JobRecord} {job : Job}
      (requeued : record.job.requeueSvg requeue = some job) :
      Change limits (.retrySvg input) record { record with job := job }
  | requested {jobId : String} {sequence page : Nat} {timestamp : Timestamp} {record next : JobRecord}
      (requested : record.requestPreview sequence page timestamp = some next) :
      Change limits (.requestPreview jobId sequence page timestamp) record next
  | requestedAgain {jobId : String} {sequence : Nat} {timestamp : Timestamp} {record next : JobRecord}
      (updated : record.updatePreview sequence (·.requestAgain timestamp) = some next) :
      Change limits (.requestPreviewAgain jobId sequence timestamp) record next
  | claimed {jobId : String} {sequence : Nat} {workerId : String} {timestamp : Timestamp}
      {record next : JobRecord}
      (updated : record.updatePreview sequence (·.claim workerId timestamp) = some next) :
      Change limits (.claimPreview jobId sequence workerId timestamp) record next
  | recovered {jobId : String} {sequence attempt : Nat} {staleOwner workerId : String}
      {timestamp : Timestamp} {record next : JobRecord}
      (updated : record.updatePreview sequence (·.claimRecovery staleOwner attempt workerId timestamp)
        = some next) :
      Change limits (.recoverPreview jobId sequence attempt staleOwner workerId timestamp) record next
  | failed {jobId : String} {sequence attempt : Nat} {workerId errorCode : String}
      {timestamp : Timestamp} {record next : JobRecord}
      (updated : record.updatePreview sequence (·.finish workerId attempt (some errorCode) timestamp)
        = some next) :
      Change limits (.failPreview jobId sequence attempt workerId errorCode timestamp) record next
  | reserved {jobId : String} {run : PreviewRun} {record next : JobRecord}
      (reserved : record.reservePreview limits.maxOutputBytes run = some next) :
      Change limits (.reservePreview jobId run) record next
  | published {jobId : String} {run : PreviewRun} {page : ArtifactRow} {timestamp : Timestamp}
      {record next : JobRecord} (published : record.publishPreview run page timestamp = some next) :
      Change limits (.publishPreview jobId run page timestamp) record next

/-- What a transaction does to the request it is about. -/
inductive PreviewRow.Change : DatabaseAction → PreviewRow → PreviewRow → Prop
  | requestedAgain {jobId : String} {sequence : Nat} {timestamp : Timestamp} {row after : PreviewRow}
      (updated : row.requestAgain timestamp = some after) :
      Change (.requestPreviewAgain jobId sequence timestamp) row after
  | claimed {jobId : String} {sequence : Nat} {workerId : String} {timestamp : Timestamp}
      {row after : PreviewRow} (updated : row.claim workerId timestamp = some after) :
      Change (.claimPreview jobId sequence workerId timestamp) row after
  | recovered {jobId : String} {sequence attempt : Nat} {staleOwner workerId : String}
      {timestamp : Timestamp} {row after : PreviewRow}
      (updated : row.claimRecovery staleOwner attempt workerId timestamp = some after) :
      Change (.recoverPreview jobId sequence attempt staleOwner workerId timestamp) row after
  | failed {jobId : String} {sequence attempt : Nat} {workerId errorCode : String} {timestamp : Timestamp}
      {row after : PreviewRow} (updated : row.finish workerId attempt (some errorCode) timestamp = some after) :
      Change (.failPreview jobId sequence attempt workerId errorCode timestamp) row after
  | reserved {jobId : String} {run : PreviewRun} {row after : PreviewRow}
      (updated : row.reserve run.workerId run.attempt run.limit = some after) :
      Change (.reservePreview jobId run) row after
  | published {jobId : String} {run : PreviewRun} {page : ArtifactRow} {timestamp : Timestamp}
      {row after : PreviewRow} (live : ∃ expires ∈ row.leaseExpiresAt, expires > timestamp)
      (updated : row.finish run.workerId run.attempt none timestamp = some after) :
      Change (.publishPreview jobId run page timestamp) row after

theorem PreviewRow.Change.frame {action : DatabaseAction} {row after : PreviewRow}
    (change : row.Change action after) : after.sequence = row.sequence ∧ after.page = row.page := by
  cases change with
  | requestedAgain updated | claimed updated | recovered updated | failed updated | reserved updated
  | published _ updated =>
    obtain ⟨_, eq⟩ := (Option.ite_none_right_eq_some ..).mp updated
    rw [← Option.some.inj eq]
    exact ⟨rfl, rfl⟩

/-- The number of the request that a transaction is about. -/
def DatabaseAction.sequence? : DatabaseAction → Option Nat
  | .requestPreviewAgain _ sequence _ | .claimPreview _ sequence .. | .recoverPreview _ sequence ..
  | .failPreview _ sequence .. => some sequence
  | .reservePreview _ run | .publishPreview _ run .. => some run.sequence
  | _ => none

/-- What a transaction does to the requests of the job it is about. -/
inductive JobRecord.PreviewsChange (action : DatabaseAction) (record new : JobRecord) : Prop
  | same (unnumbered : action.sequence? = none) (same : new.previews = record.previews) :
      PreviewsChange action record new
  | cleared (unnumbered : action.sequence? = none) (cleared : new.previews = [])
      (deleted : new.job.row.status = .deleted) : PreviewsChange action record new
  | appended (jobId : String) (sequence page : Nat) (timestamp : Timestamp)
      (named : action = .requestPreview jobId sequence page timestamp)
      (unknown : ∀ row ∈ record.previews, row.sequence ≠ sequence ∧ row.page ≠ page)
      (rows : new.previews = record.previews ++ [.inserted sequence page timestamp]) :
      PreviewsChange action record new
  | updated (sequence : Nat) (change : PreviewRow → Option PreviewRow)
      (named : action.sequence? = some sequence)
      (updated : update? (·.sequence == sequence) change record.previews = some new.previews)
      (changes : ∀ {row after}, change row = some after → row.Change action after) :
      PreviewsChange action record new

/-- How the table of jobs after a transaction comes from the one before it. -/
inductive Database.JobsChange (limits : Limits) (action : DatabaseAction) (db next : Database) : Prop
  | fewer (unnamed : action.jobId? = none) (fewer : List.Sublist next.jobs db.jobs) :
      JobsChange limits action db next
  | inserted (unnamed : action.jobId? = none) (row : JobRow) (created : Job.Inserted { row := row })
      (named : action.newJobId? = some row.id)
      (rows : next.jobs = db.jobs ++ [{ job := { row := row } }]) : JobsChange limits action db next
  | changed (before : List JobRecord) (record : JobRecord) (after : List JobRecord) (new : JobRecord)
      (named : action.jobId? = some record.job.row.id) (old : db.jobs = before ++ record :: after)
      (first : db.jobs.find? (·.job.row.id == record.job.row.id) = some record)
      (change : record.Change limits action new) (rows : next.jobs = before ++ new :: after) :
      JobsChange limits action db next

section Changes

variable {limits : Limits} {action : DatabaseAction} {db next : Database}

theorem JobRecord.Change.follows {record new : JobRecord} (change : record.Change limits action new) :
    record.Follows action.event new := by
  cases change with
  | acted acted => exact act_follows acted
  | retried requeued =>
    rename_i requeue job
    have ran : JobAction.run limits.maxOutputBytes record.job (.requeueSvg requeue) = some job := requeued
    exact .inr ⟨JobAction.run_identity ran, JobAction.run_step ran⟩
  | requested requested => exact requestPreview_follows requested
  | requestedAgain updated | claimed updated | recovered updated | failed updated =>
    exact updatePreview_follows updated
  | reserved reserved => exact reservePreview_follows reserved
  | published published => exact publishPreview_follows published

private theorem updatePreview_changes {sequence : Nat} {change : PreviewRow → Option PreviewRow}
    {record new : JobRecord} (updated : record.updatePreview sequence change = some new)
    (named : action.sequence? = some sequence)
    (changes : ∀ {row after}, change row = some after → row.Change action after) :
    record.PreviewsChange action new := by
  obtain ⟨previews, found, rfl⟩ := JobRecord.updatePreview_eq_some updated
  exact .updated sequence change named found changes

/-- Every change of a record changes its requests so. -/
theorem JobRecord.Change.previews {record new : JobRecord} (change : record.Change limits action new) :
    record.PreviewsChange action new := by
  cases change with
  | @acted jobId action _ _ acted =>
    obtain ⟨_, job, ran, rfl⟩ := act_eq_some acted
    cases action with
    | finishDeletion now =>
      obtain ⟨deleted, updated, rfl⟩ := Option.map_eq_some_iff.mp ran
      obtain ⟨_, eq⟩ := (Option.ite_none_right_eq_some ..).mp (Job.updateStatus_row updated)
      refine .cleared rfl rfl ?_
      change deleted.row.status = .deleted
      rw [← Option.some.inj eq]
    | _ => exact .same rfl rfl
  | retried => exact .same rfl rfl
  | requested requested =>
    simp only [requestPreview, Option.ite_none_left_eq_some, Option.some.injEq, Bool.or_eq_true,
      List.any_eq_true, not_or] at requested
    obtain ⟨⟨unknown, _⟩, rfl⟩ := requested
    refine .appended _ _ _ _ rfl (fun row member => ⟨fun same => ?_, fun same => ?_⟩) rfl
    · exact unknown ⟨row, member, .inl (beq_iff_eq.mpr same)⟩
    · exact unknown ⟨row, member, .inr (beq_iff_eq.mpr same)⟩
  | requestedAgain updated => exact updatePreview_changes updated rfl .requestedAgain
  | claimed updated => exact updatePreview_changes updated rfl .claimed
  | recovered updated => exact updatePreview_changes updated rfl .recovered
  | failed updated => exact updatePreview_changes updated rfl .failed
  | reserved reserved =>
    obtain ⟨_, updated⟩ := (Option.ite_none_right_eq_some ..).mp reserved
    obtain ⟨mid, changed, rfl⟩ := Option.map_eq_some_iff.mp updated
    obtain ⟨previews, found, rfl⟩ := updatePreview_eq_some changed
    exact .updated _ _ rfl found .reserved
  | published published =>
    simp only [publishPreview, Option.bind_eq_bind, Option.bind_eq_some_iff, Option.some.injEq] at published
    obtain ⟨_, _, mid, changed, inserted, _, rfl⟩ := published
    obtain ⟨previews, found, rfl⟩ := updatePreview_eq_some changed
    refine .updated _ _ rfl found fun updated => ?_
    obtain ⟨live, finished⟩ := (Option.ite_none_right_eq_some ..).mp updated
    exact .published live finished

private theorem jobs_kept (unnamed : action.jobId? = none) (same : next.jobs = db.jobs) :
    Database.JobsChange limits action db next :=
  .fewer unnamed (by rw [same])

private theorem inserted_changes {row : JobRow} (inserted : db.insertJob row = some next)
    (unnamed : action.jobId? = none) (created : Job.Inserted { row := row })
    (named : action.newJobId? = some row.id) : Database.JobsChange limits action db next := by
  obtain ⟨_, eq⟩ := (Option.ite_none_left_eq_some ..).mp inserted
  exact .inserted unnamed row created named (by rw [← Option.some.inj eq])

private theorem updated_changes {jobId : String} {change : JobRecord → Option JobRecord}
    (updated : db.updateJob jobId change = some next) (named : action.jobId? = some jobId)
    (changes : ∀ {record new}, change record = some new → record.Change limits action new) :
    Database.JobsChange limits action db next := by
  obtain ⟨jobs, found, rfl⟩ := Option.map_eq_some_iff.mp updated
  obtain ⟨before, record, after, new, old, first, changed, rfl⟩ := update?_eq_some found
  have keyed : record.job.row.id = jobId := beq_iff_eq.mp (List.find?_some first :)
  subst keyed
  exact .changed before record after new named old first (changes changed) rfl

/-- Every transaction changes the table of jobs so. -/
theorem DatabaseAction.run_jobs (ran : action.run limits db = some next) :
    Database.JobsChange limits action db next := by
  cases action with
  | createRender input =>
    simp only [run, Database.createRender, Option.bind_eq_bind, Option.bind_eq_some_iff] at ran
    obtain ⟨_, _, reserved, source, job⟩ := ran
    obtain ⟨_, eq⟩ := (Option.ite_none_left_eq_some ..).mp source
    have same : reserved.jobs = db.jobs := by rw [← Option.some.inj eq]
    obtain ⟨_, inserted⟩ := (Option.ite_none_left_eq_some ..).mp job
    have rows := congrArg Database.jobs (Option.some.inj inserted)
    rw [same] at rows
    exact .inserted rfl _ (Job.Inserted.reserved _) rfl rows.symm
  | createRenderFromSource texts input =>
    simp only [run, Database.createRenderFromSource, Option.bind_eq_bind, Option.bind_eq_some_iff] at ran
    obtain ⟨_, _, source, _, _, _, row, queued, job⟩ := ran
    refine inserted_changes job rfl (Job.Inserted.queued _ _ _ row queued) ?_
    simp only [insertQueued?, Option.ite_none_right_eq_some, Option.some.injEq] at queued
    rw [← queued.2]
    rfl
  | retryRender texts input =>
    simp only [run, Database.retryRender, Option.bind_eq_bind, Option.bind_eq_some_iff] at ran
    obtain ⟨_, _, _, _, _, _, _, _, _, _, job⟩ := ran
    exact inserted_changes job rfl (Job.Inserted.retry (Database.insertRetryInput limits input)) rfl
  | retrySvg input =>
    simp only [run, Database.retrySvg, Option.bind_eq_bind, Option.bind_eq_some_iff] at ran
    obtain ⟨_, _, _, _, _, _, _, _, updated⟩ := ran
    refine updated_changes updated rfl fun changed => ?_
    obtain ⟨job, requeued, rfl⟩ := Option.map_eq_some_iff.mp changed
    exact .retried requeued
  | reserveSource input =>
    simp only [run, Database.reserveSource, Option.bind_eq_bind, Option.bind_eq_some_iff] at ran
    obtain ⟨_, _, _, _, inserted⟩ := ran
    obtain ⟨_, eq⟩ := (Option.ite_none_left_eq_some ..).mp inserted
    exact jobs_kept rfl (by rw [← Option.some.inj eq])
  | source | publishTree | invalidateTree | collectTree =>
    obtain ⟨_, _, rfl⟩ := Option.map_eq_some_iff.mp ran
    exact jobs_kept rfl rfl
  | reserveTree =>
    obtain ⟨_, eq⟩ := (Option.ite_none_right_eq_some ..).mp ran
    exact jobs_kept rfl (by rw [← Option.some.inj eq])
  | discardReservation | deleteTree | setMaintenanceMode =>
    cases ran
    exact jobs_kept rfl rfl
  | forgetJob =>
    cases ran
    exact .fewer rfl List.filter_sublist
  | job => exact updated_changes ran rfl .acted
  | requestPreview => exact updated_changes ran rfl .requested
  | requestPreviewAgain => exact updated_changes ran rfl .requestedAgain
  | claimPreview => exact updated_changes ran rfl .claimed
  | recoverPreview => exact updated_changes ran rfl .recovered
  | failPreview => exact updated_changes ran rfl .failed
  | reservePreview jobId run =>
    simp only [DatabaseAction.run, Database.reservePreview, Option.bind_eq_bind, Option.bind_eq_some_iff] at ran
    obtain ⟨_, _, _, _, updated⟩ := ran
    exact updated_changes updated rfl .reserved
  | publishPreview => exact updated_changes ran rfl .published

/-- Every record after a transaction is an earlier one, the changed one or a fresh one. -/
theorem Database.JobsChange.records (changes : Database.JobsChange limits action db next)
    {record : JobRecord} (member : record ∈ next.jobs) :
    record ∈ db.jobs ∨
      (∃ old ∈ db.jobs, old.Change limits action record ∧ action.jobId? = some old.job.row.id) ∨
      (∃ row : JobRow, Job.Inserted { row := row } ∧ action.newJobId? = some row.id ∧
        record = { job := { row := row } }) := by
  cases changes with
  | fewer _ fewer => exact .inl (fewer.subset member)
  | inserted _ row created named rows =>
    rw [rows] at member
    rcases List.mem_append.mp member with older | added
    · exact .inl older
    · exact .inr (.inr ⟨row, created, named, List.mem_singleton.mp added⟩)
  | changed before old after new named rows first change next =>
    rw [next] at member
    rcases List.mem_append.mp member with left | right
    · exact .inl (by simp [rows, left])
    · rcases List.mem_cons.mp right with rfl | later
      · exact .inr (.inl ⟨old, by simp [rows], change, named⟩)
      · exact .inl (by simp [rows, later])

/-- A transaction about a job has changed its record. -/
theorem DatabaseAction.run_changed {jobId : String} (ran : action.run limits db = some next)
    (about : action.jobId? = some jobId) :
    ∃ before record after new, db.jobs = before ++ record :: after ∧
      db.jobs.find? (·.job.row.id == jobId) = some record ∧ record.job.row.id = jobId ∧
      record.Change limits action new ∧ next.jobs = before ++ new :: after := by
  cases DatabaseAction.run_jobs ran with
  | fewer unnamed | inserted unnamed => simp [unnamed] at about
  | changed before record after new named old first change rows =>
    obtain rfl := Option.some.inj (named.symm.trans about)
    exact ⟨before, record, after, new, old, first, rfl, change, rows⟩

theorem Database.mem_previewRequests {request : PreviewRequest} :
    request ∈ db.previewRequests ↔
      ∃ record ∈ db.jobs, record.job.row.id = request.jobId ∧ request.row ∈ record.previews := by
  simp only [previewRequests, List.mem_flatMap, List.mem_map]
  refine exists_congr fun record => and_congr_right fun _ => ?_
  constructor
  · rintro ⟨row, member, rfl⟩
    exact ⟨rfl, member⟩
  · rintro ⟨named, member⟩
    exact ⟨request.row, member, by rw [named]⟩

/-- Every request after a transaction is an earlier one, a new one or the changed one. -/
theorem Database.JobsChange.requests (changes : Database.JobsChange limits action db next)
    (distinct : db.Distinct) {request : PreviewRequest} (member : request ∈ next.previewRequests) :
    request ∈ db.previewRequests ∨
      (∃ sequence page timestamp, action = .requestPreview request.jobId sequence page timestamp ∧
        request.row = .inserted sequence page timestamp ∧
        ∀ other ∈ db.previewRequests, other.jobId = request.jobId →
          other.row.sequence ≠ sequence ∧ other.row.page ≠ page) ∨
      ∃ row, ⟨request.jobId, row⟩ ∈ db.previewRequests ∧ row.Change action request.row ∧
        action.jobId? = some request.jobId ∧ action.sequence? = some row.sequence := by
  obtain ⟨record, within, named, row⟩ := mem_previewRequests.mp member
  rcases changes.records within with older | ⟨old, older, change, about⟩ | ⟨_, _, _, rfl⟩
  · exact .inl (mem_previewRequests.mpr ⟨record, older, named, row⟩)
  · have same : old.job.row.id = request.jobId := change.follows.id_eq.symm.trans named
    have earlier {row : PreviewRow} (member : row ∈ old.previews) : ⟨request.jobId, row⟩ ∈ db.previewRequests :=
      mem_previewRequests.mpr ⟨old, older, same, member⟩
    rw [same] at about
    cases change.previews with
    | same _ kept => exact .inl (earlier (kept ▸ row))
    | cleared _ cleared => simp [cleared] at row
    | appended jobId sequence page timestamp asked unknown rows =>
      rw [rows] at row
      rcases List.mem_append.mp row with before | added
      · exact .inl (earlier before)
      · rw [asked] at about
        obtain rfl := Option.some.inj about
        refine .inr (.inl ⟨sequence, page, timestamp, asked, List.mem_singleton.mp added, ?_⟩)
        intro other among sameJob
        obtain ⟨holder, held, holds, within⟩ := mem_previewRequests.mp among
        obtain rfl := List.inj_on_of_nodup_map distinct.jobs held older (holds.trans (sameJob.trans same.symm))
        exact unknown other.row within
    | updated sequence change numbered updated changes =>
      obtain ⟨before, changed, rest, after, rows, first, new, eq⟩ := update?_eq_some updated
      obtain rfl : changed.sequence = sequence := beq_iff_eq.mp (List.find?_some first :)
      rw [eq] at row
      rcases List.mem_append.mp row with left | right
      · exact .inl (earlier (by simp [rows, left]))
      · rcases List.mem_cons.mp right with here | later
        · exact .inr (.inr ⟨changed, earlier (by simp [rows]), here ▸ changes new, about, numbered⟩)
        · exact .inl (earlier (by simp [rows, later]))
  · simp at row

end Changes

/-- A transaction with what its caller has checked in it. -/
inductive PreviewSystem.Makes (system : PreviewSystem) : DatabaseAction → Prop
  | other {action : DatabaseAction} (elsewhere : action.ofPreviewQueue = false) :
      Makes system (system.db.seeingPreviews action)
  | request {jobId : String} {sequence page : Nat} {timestamp : Timestamp}
      (room : system.assertQueueRoom jobId = .ok ()) (above : system.lastSequence < sequence) :
      Makes system (.requestPreview jobId sequence page timestamp)
  | requestAgain {jobId : String} {sequence : Nat} {timestamp : Timestamp}
      (room : system.assertQueueRoom jobId = .ok ()) :
      Makes system (.requestPreviewAgain jobId sequence timestamp)
  | claim {next : PreviewRequest} {workerId : String} {timestamp : Timestamp}
      (idle : system.db.previewsBusy = false) (oldest : system.db.nextPreview? = some next) :
      Makes system (.claimPreview next.jobId next.row.sequence workerId timestamp)
  | reserve {jobId : String} {run : PreviewRun} {cutoff : Timestamp} {pdf : ArtifactRow}
      (verified : system.verifiedPdf cutoff jobId = some pdf) : Makes system (.reservePreview jobId run)
  | publish {jobId artifactId : String} {page size : Nat} {sha256 : Sha256} {run : PreviewRun}
      {now cutoff : Timestamp} {pdf : ArtifactRow} {row : PreviewRow}
      (verified : system.verifiedPdf cutoff jobId = some pdf) (requested : system.get jobId page = some row)
      (numbered : row.sequence = run.sequence) :
      Makes system (.publishPreview jobId run (run.artifact artifactId page size sha256 now) now)

/-- The transaction that a step asks for. -/
def PreviewAction.statement? (system : PreviewSystem) : PreviewAction → Option DatabaseAction
  | .transact action => if action.ofPreviewQueue then none else some (system.db.seeingPreviews action)
  | .register jobId fence operation _ => some (.job jobId (.worker fence operation))
  | .enqueue jobId sequence page timestamp cutoff =>
    (system.request jobId sequence page timestamp cutoff).toOption.join
  | .claim workerId timestamp => system.db.nextPreview?.map fun next =>
    .claimPreview next.jobId next.row.sequence workerId timestamp
  | .reserve jobId run _ => some (.reservePreview jobId run)
  | .publish jobId page run artifactId size sha256 now _ =>
    some (.publishPreview jobId run (run.artifact artifactId page size sha256 now) now)

/-- A step has committed the transaction it asks for, with all its checks. -/
structure PreviewAction.Commits (limits : Limits) (action : PreviewAction) (system next : PreviewSystem)
    (statement : DatabaseAction) : Prop where
  asked : action.statement? system = some statement
  makes : system.Makes statement
  ran : statement.run limits system.db = some next.db
  new : ∀ id ∈ statement.newJobId?, id ∉ system.jobIds
  jobIds : next.jobIds = statement.newJobId?.toList ++ system.jobIds

section Makes

variable {limits : Limits} {system next : PreviewSystem}

theorem PreviewSystem.commit_eq_some {statement : DatabaseAction}
    (committed : system.commit limits statement = some next) :
    (∀ id ∈ statement.newJobId?, id ∉ system.jobIds) ∧ ∃ db, statement.run limits system.db = some db ∧
      next = { system with
        db := db
        documents := system.documents.filter (keepsDocument db)
        jobIds := statement.newJobId?.toList ++ system.jobIds } := by
  obtain ⟨new, updated⟩ := (Option.ite_none_left_eq_some ..).mp committed
  obtain ⟨db, ran, rfl⟩ := Option.map_eq_some_iff.mp updated
  refine ⟨fun id named known => new ?_, db, ran, rfl⟩
  simp [Option.mem_def.mp named, known]

theorem PreviewSystem.assertQueueRoom_ok {jobId : String} (room : system.assertQueueRoom jobId = .ok ()) :
    system.db.waitingPreviews < maxWaitingPreviews ∧
      ∀ record, system.db.jobs.find? (·.job.row.id == jobId) = some record →
        system.db.ownedWaitingPreviews record.job.row.userId < maxOwnedPreviews := by
  unfold assertQueueRoom at room
  dsimp only at room
  split at room
  · cases room
  · next within =>
    rw [not_or] at within
    refine ⟨Nat.lt_of_not_le within.1, fun record found => Nat.lt_of_not_le ?_⟩
    simpa [found] using within.2

/-- `request` makes a statement only when the queue has room. -/
theorem PreviewSystem.request_makes {jobId : String} {sequence page : Nat} {timestamp cutoff : Timestamp}
    {statement : DatabaseAction}
    (made : system.request jobId sequence page timestamp cutoff = .ok (some statement)) :
    system.assertQueueRoom jobId = .ok () ∧
      (statement = .requestPreview jobId sequence page timestamp ∨
        ∃ prior, statement = .requestPreviewAgain jobId prior timestamp) := by
  unfold request at made
  split at made
  · split at made
    · cases made
    · split at made
      · cases room : system.assertQueueRoom jobId with
        | error => simp [room, bind, Except.bind] at made
        | ok =>
          simp only [room, bind, Except.bind, pure, Except.pure, Except.ok.injEq, Option.some.injEq] at made
          exact ⟨rfl, .inl made.symm⟩
      · split at made
        · cases made
        · split at made
          · cases made
          · cases room : system.assertQueueRoom jobId with
            | error => simp [room, bind, Except.bind] at made
            | ok =>
              simp only [room, bind, Except.bind, pure, Except.pure, Except.ok.injEq, Option.some.injEq] at made
              exact ⟨rfl, .inr ⟨_, made.symm⟩⟩
  · cases made

theorem ok_of_toOption {ε α : Type} {result : Except ε α} {value : α}
    (read : result.toOption = some value) : result = .ok value := by
  cases result with
  | error => cases read
  | ok => exact congrArg Except.ok (Option.some.inj read)

/-- Every step commits the transaction it asks for, once its checks have passed; one that asks for none
changes nothing. -/
theorem PreviewAction.run_commits {action : PreviewAction} (ran : action.run limits system = some next) :
    action.statement? system = none ∧ next = system ∨
      ∃ statement, action.Commits limits system next statement := by
  cases action with
  | transact action =>
    obtain ⟨queued, committed⟩ := (Option.ite_none_left_eq_some ..).mp ran
    obtain ⟨new, db, updated, rfl⟩ := PreviewSystem.commit_eq_some committed
    exact .inr ⟨_, if_neg queued, .other (by simpa using queued), updated, new, rfl⟩
  | register jobId fence operation pageCount =>
    simp only [run, PreviewSystem.register, Option.bind_eq_bind, Option.bind_eq_some_iff, Option.pure_def,
      Option.some.injEq] at ran
    obtain ⟨_, _, mid, transacted, _, _, _, _, rfl⟩ := ran
    obtain ⟨_, committed⟩ := (Option.ite_none_left_eq_some ..).mp transacted
    obtain ⟨new, db, updated, rfl⟩ := PreviewSystem.commit_eq_some committed
    have other : system.Makes (system.db.seeingPreviews (.job jobId (.worker fence operation))) := .other rfl
    exact .inr ⟨_, rfl, other, updated, new, rfl⟩
  | enqueue jobId sequence page timestamp cutoff =>
    simp only [run, PreviewSystem.enqueue, Option.bind_eq_bind, Option.bind_eq_some_iff,
      Option.guard_eq_some', exists_const] at ran
    obtain ⟨above, statement, checked, made⟩ := ran
    cases statement with
    | none =>
      cases made
      exact .inl ⟨by simp [statement?, checked], rfl⟩
    | some statement =>
      obtain ⟨new, db, updated, rfl⟩ := PreviewSystem.commit_eq_some made
      have asked : (PreviewAction.enqueue jobId sequence page timestamp cutoff).statement? system
          = some statement := by simp [statement?, checked]
      obtain ⟨room, rfl | ⟨prior, rfl⟩⟩ := PreviewSystem.request_makes (ok_of_toOption checked)
      · exact .inr ⟨_, asked, .request room above, updated, new, rfl⟩
      · exact .inr ⟨_, asked, .requestAgain room, updated, new, rfl⟩
  | claim workerId timestamp =>
    obtain ⟨⟨after, claimed⟩, claiming, rfl⟩ := Option.map_eq_some_iff.mp ran
    simp only [PreviewSystem.claim, Option.bind_eq_bind, Option.bind_eq_some_iff, Option.guard_eq_some',
      exists_const, Option.pure_def, Option.some.injEq, Prod.mk.injEq] at claiming
    obtain ⟨idle, oldest, first, _, _, mid, committed, rfl, _⟩ := claiming
    obtain ⟨new, db, updated, rfl⟩ := PreviewSystem.commit_eq_some committed
    exact .inr ⟨_, by rw [statement?, first]; rfl, .claim idle first, updated, new, rfl⟩
  | reserve jobId run cutoff =>
    obtain ⟨pdf, verified, committed⟩ := Option.bind_eq_some_iff.mp ran
    obtain ⟨new, db, updated, rfl⟩ := PreviewSystem.commit_eq_some committed
    exact .inr ⟨_, rfl, .reserve verified, updated, new, rfl⟩
  | publish jobId page run artifactId size sha256 now cutoff =>
    simp only [PreviewAction.run, PreviewSystem.publish, Option.bind_eq_bind, Option.bind_eq_some_iff,
      Option.guard_eq_some', exists_const] at ran
    obtain ⟨pdf, verified, row, requested, numbered, committed⟩ := ran
    obtain ⟨new, db, updated, rfl⟩ := PreviewSystem.commit_eq_some committed
    exact .inr ⟨_, rfl, .publish verified requested numbered, updated, new, rfl⟩

/-- A job is claimed only while no preview runs. -/
theorem PreviewSystem.Makes.claim_idle {statement : DatabaseAction} (makes : system.Makes statement)
    {record new : JobRecord} (change : record.Change limits statement new)
    (claims : statement.event = .claim) : system.db.previewRunning = false := by
  cases change with
  | @acted jobId action _ _ acted =>
    obtain ⟨_, _, ran, _⟩ := JobRecord.act_eq_some acted
    cases action with
    | claimNext workerId now leaseExpiresAt queuedBefore previewRunning =>
      have unseen : previewRunning = false := by
        have row := Job.updateStatus_row ran
        simp only [JobRow.claimNext, Option.ite_none_left_eq_some] at row
        simpa using row.1
      subst unseen
      generalize named : DatabaseAction.job jobId (.claimNext workerId now leaseExpiresAt queuedBefore false)
        = statement at makes
      cases makes with
      | @other action =>
        unfold Database.seeingPreviews at named
        split at named
        · simp only [DatabaseAction.job.injEq, JobAction.claimNext.injEq] at named
          exact named.2.2.2.2.2.symm
        · cases named
        · next apart _ => exact (apart _ _ _ _ _ _ named.symm).elim
      | _ => cases named
    | worker fence operation => cases operation <;> cases claims
    | _ => cases claims
  | _ => cases claims

/-- The database of the system takes steps of the database machine. -/
theorem previewMachine_simulates (limits : Limits) :
    Simulates (previewMachine limits) (databaseMachine limits) PreviewSystem.db where
  init := fun ⟨jobs, sources, trees, _⟩ => ⟨jobs, sources, trees⟩
  step := by
    intro system action next _ taken
    rcases PreviewAction.run_commits taken with ⟨_, rfl⟩ | ⟨statement, commits⟩
    · exact .inl rfl
    · exact .inr ⟨statement, commits.ran⟩

end Makes

end LatexRenderer
