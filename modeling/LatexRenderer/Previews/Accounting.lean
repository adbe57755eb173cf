import LatexRenderer.Previews.Budget

/-! # Publication and accounting of previews

A request is finished only under the owner and the attempt it is claimed with, a page is published at
most once in the life of its job, and the job's output grows by the published bytes.
-/

namespace LatexRenderer

open Machine

/-- The request that a step finishes, with the owner and the attempt it names. -/
structure PreviewFinish where
  jobId : String
  sequence : Nat
  workerId : String
  attempt : Nat

def DatabaseAction.finish? : DatabaseAction → Option PreviewFinish
  | .publishPreview jobId run .. => some ⟨jobId, run.sequence, run.workerId, run.attempt⟩
  | .failPreview jobId sequence attempt workerId .. => some ⟨jobId, sequence, workerId, attempt⟩
  | _ => none

/-- The two statements that call `finish`. -/
def PreviewAction.finish? : PreviewAction → Option PreviewFinish
  | .publish jobId _ run .. => some ⟨jobId, run.sequence, run.workerId, run.attempt⟩
  | .transact (.failPreview jobId sequence attempt workerId ..) => some ⟨jobId, sequence, workerId, attempt⟩
  | _ => none

/-- The finish is made by the one who holds the request. -/
def PreviewFinish.Holds (finish : PreviewFinish) (request : PreviewRequest) : Prop :=
  finish.jobId = request.jobId ∧ finish.sequence = request.row.sequence ∧
    request.row.ownedBy finish.workerId finish.attempt

/-- The step publishes this page of this job. -/
def PreviewAction.publishes (jobId : String) (page : Nat) : PreviewAction → Bool
  | .publish job number .. => job == jobId && number == page
  | _ => false

/-- The bytes that a step publishes as previews of this job. -/
def PreviewAction.publishedBytes (jobId : String) : PreviewAction → Nat
  | .publish job _ _ _ size .. => if job = jobId then size else 0
  | _ => 0

/-- The step is one of a renderer of this job. -/
def PreviewAction.renders (jobId : String) : PreviewAction → Bool
  | .transact (.job job (.worker ..)) => job == jobId
  | .register job .. => job == jobId
  | _ => false

section Sound

variable {limits : Limits} {system next : PreviewSystem} {action : PreviewAction}
  {statement : DatabaseAction}

/-- The jobs are sound in the sense of the admission quotas. -/
theorem PreviewSystem.jobs_sound (reached : Reachable (previewMachine limits) system) :
    ∀ record ∈ system.db.jobs, record.Sound limits.maxOutputBytes :=
  (sound_of_reachable ((previewMachine_simulates limits).reachable reached)).jobs

/-- The number of a request names it within its job. -/
theorem PreviewSystem.request_unique (reached : Reachable (previewMachine limits) system)
    {first second : PreviewRequest} (one : first ∈ system.db.previewRequests)
    (two : second ∈ system.db.previewRequests) (job : first.jobId = second.jobId)
    (sequence : first.row.sequence = second.row.sequence) : first = second := by
  obtain ⟨record, held, named, row⟩ := Database.mem_previewRequests.mp one
  obtain ⟨other, within, same, later⟩ := Database.mem_previewRequests.mp two
  obtain rfl := List.inj_on_of_nodup_map (previewSystem_sound reached).distinct.jobs held within
    (named.trans (job.trans same.symm))
  have rows := List.inj_on_of_nodup_map (PreviewSystem.jobs_sound reached record held).distinct row later sequence
  cases first
  cases second
  cases job
  cases rows
  rfl

theorem PreviewSystem.running_le_one (reached : Reachable (previewMachine limits) system)
    {record : JobRecord} (member : record ∈ system.db.jobs) :
    record.previews.countP (·.status == .running) ≤ 1 := by
  have bounded : system.usage .running ≤ 1 := (previewMachine_metered limits).bounded reached .running
  have part := le_total_of_mem (JobRecord.previewWeight .running) member
  exact Nat.le_trans part bounded

theorem previewSystem_budgeted (reached : Reachable (previewMachine limits) system) :
    ∀ record ∈ system.db.jobs, record.Budgeted limits.maxOutputBytes := by
  refine reached.induction
    (P := fun system => ∀ record ∈ system.db.jobs, record.Budgeted limits.maxOutputBytes) ?_ ?_
  · rintro start ⟨jobs, _⟩
    simp [jobs]
  · intro system action next reached taken budgeted record member
    rcases PreviewAction.run_commits taken with ⟨_, rfl⟩ | ⟨statement, commits⟩
    · exact budgeted record member
    rcases (DatabaseAction.run_jobs commits.ran).records member with older | ⟨old, older, change, _⟩ |
      ⟨row, created, _, rfl⟩
    · exact budgeted record older
    · refine change.budgeted (PreviewSystem.jobs_sound reached old older)
        (PreviewSystem.running_le_one reached older) (fun live row within running => ?_) (budgeted old older)
      refine (previewSystem_sound reached).live ?_ old older live
      rw [Database.previewRunning, List.any_eq_true]
      exact ⟨old, older, List.any_eq_true.mpr ⟨row, within, beq_iff_eq.mpr running⟩⟩
    · have silent : row.outputSize = none := created.outputSize
      exact ⟨by simp [silent], by simp⟩

end Sound

section Holder

variable {limits : Limits} {system next : PreviewSystem} {action : PreviewAction}
  {statement : DatabaseAction}

/-- What a transaction of the database says of its job, when the step is no transaction of the queue. -/
private theorem seeingPreviews_cases (db : Database) {action : DatabaseAction}
    (elsewhere : action.ofPreviewQueue = false) :
    (db.seeingPreviews action).finish? = action.finish? ∧
      (db.seeingPreviews action).publishedBytes = 0 ∧
      (db.seeingPreviews action).ofRenderer = action.ofRenderer ∧
      (db.seeingPreviews action).jobId? = action.jobId? := by
  unfold Database.seeingPreviews
  split
  · exact ⟨rfl, rfl, rfl, rfl⟩
  · exact ⟨rfl, rfl, rfl, rfl⟩
  · refine ⟨rfl, ?_, rfl, rfl⟩
    cases action with
    | publishPreview => cases elsewhere
    | _ => rfl

/-- What a step finishes, publishes and renders is what its transaction does. -/
theorem PreviewAction.Commits.agrees (commits : action.Commits limits system next statement) :
    action.finish? = statement.finish? ∧
      (∀ jobId, action.publishedBytes jobId =
        if statement.jobId? = some jobId then statement.publishedBytes else 0) ∧
      ∀ jobId, statement.jobId? = some jobId → statement.ofRenderer = true → action.renders jobId = true := by
  have asked := commits.asked
  cases action with
  | transact action =>
    obtain ⟨elsewhere, eq⟩ := (Option.ite_none_left_eq_some ..).mp asked
    obtain ⟨finish, bytes, renders, job⟩ := seeingPreviews_cases system.db (by simpa using elsewhere)
    obtain rfl := Option.some.inj eq
    rw [finish, bytes, renders, job]
    refine ⟨?_, by simp [publishedBytes], fun jobId named rendering => ?_⟩
    · cases action with
      | publishPreview => simp [DatabaseAction.ofPreviewQueue] at elsewhere
      | _ => rfl
    · cases action with
      | job job action =>
        obtain rfl := Option.some.inj named
        cases action with
        | worker => simp [PreviewAction.renders]
        | _ => cases rendering
      | _ => cases rendering
  | register jobId fence operation =>
    obtain rfl := Option.some.inj asked
    refine ⟨rfl, by simp [publishedBytes, DatabaseAction.publishedBytes], fun job named _ => ?_⟩
    obtain rfl := Option.some.inj named
    simp [renders]
  | enqueue jobId sequence page timestamp cutoff =>
    have checked := ok_of_toOption (Option.join_eq_some_iff.mp asked)
    obtain ⟨_, rfl | ⟨prior, rfl⟩⟩ := PreviewSystem.request_makes checked <;>
      exact ⟨rfl, by simp [publishedBytes, DatabaseAction.publishedBytes],
        by simp [DatabaseAction.ofRenderer]⟩
  | claim =>
    obtain ⟨_, _, rfl⟩ := Option.map_eq_some_iff.mp asked
    exact ⟨rfl, by simp [publishedBytes, DatabaseAction.publishedBytes], by simp [DatabaseAction.ofRenderer]⟩
  | reserve =>
    obtain rfl := Option.some.inj asked
    exact ⟨rfl, by simp [publishedBytes, DatabaseAction.publishedBytes], by simp [DatabaseAction.ofRenderer]⟩
  | publish =>
    obtain rfl := Option.some.inj asked
    exact ⟨rfl, by simp [publishedBytes, DatabaseAction.publishedBytes, DatabaseAction.jobId?,
      PreviewRun.artifact], by simp [DatabaseAction.ofRenderer]⟩

/-- A statement on a running request keeps it running, or is a finish by its holder. -/
private theorem PreviewRow.Change.finished {row after : PreviewRow} {request : PreviewRequest}
    (change : row.Change statement after) (running : row.status = .running) (ended : after.status ≠ .running)
    (about : statement.jobId? = some request.jobId) (same : request.row = row)
    (numbered : statement.sequence? = some row.sequence) :
    ∃ finish, statement.finish? = some finish ∧ finish.Holds request := by
  subst same
  cases change with
  | requestedAgain updated =>
    have guarded := ((Option.ite_none_right_eq_some ..).mp updated).1
    simp [running] at guarded
  | claimed updated =>
    have guarded := ((Option.ite_none_right_eq_some ..).mp updated).1
    simp [running] at guarded
  | recovered updated | reserved updated =>
    obtain ⟨held, eq⟩ := (Option.ite_none_right_eq_some ..).mp updated
    refine absurd ?_ ended
    rw [← Option.some.inj eq]
    exact running
  | failed updated | published _ updated =>
    have held := (PreviewRow.finish_ended updated).1
    exact ⟨_, rfl, Option.some.inj about, Option.some.inj numbered, held⟩

theorem PreviewSystem.finished_by_holder (ran : action.run limits system = some next)
    {finish : PreviewFinish} (finishes : action.finish? = some finish) :
    ∃ request ∈ system.db.previewRequests, finish.Holds request := by
  rcases PreviewAction.run_commits ran with ⟨silent, _⟩ | ⟨statement, commits⟩
  · cases action with
    | transact action =>
      cases action with
      | failPreview => simp [PreviewAction.statement?, DatabaseAction.ofPreviewQueue] at silent
      | _ => cases finishes
    | publish => cases silent
    | _ => cases finishes
  rw [commits.agrees.1] at finishes
  have about : statement.jobId? = some finish.jobId := by
    cases statement with
    | publishPreview | failPreview =>
      obtain rfl := Option.some.inj finishes
      rfl
    | _ => cases finishes
  obtain ⟨before, record, after, new, rows, _, named, change, _⟩ := DatabaseAction.run_changed commits.ran about
  cases change.previews with
  | updated sequence change numbered updated changes =>
    obtain ⟨left, row, right, later, within, first, changed, _⟩ := update?_eq_some updated
    have same : row.sequence = sequence := beq_iff_eq.mp (List.find?_some first :)
    have held := changes changed
    refine ⟨⟨record.job.row.id, row⟩, Database.mem_previewRequests.mpr
      ⟨record, by simp [rows], rfl, by simp [within]⟩, named.symm, ?_⟩
    cases held with
    | failed updated | published _ updated =>
      obtain rfl := Option.some.inj finishes
      exact ⟨(Option.some.inj numbered).trans same.symm, (PreviewRow.finish_ended updated).1⟩
    | _ => cases finishes
  | appended _ _ _ _ asked =>
    rw [asked] at finishes
    cases finishes
  | same unnumbered | cleared unnumbered =>
    cases statement with
    | publishPreview | failPreview => cases unnumbered
    | _ => cases finishes

/-- A running request that no longer runs was finished by its holder. -/
theorem PreviewSystem.ended_by_holder (reached : Reachable (previewMachine limits) system)
    (ran : action.run limits system = some next) {request later : PreviewRequest}
    (member : request ∈ system.db.previewRequests) (running : request.row.status = .running)
    (after : later ∈ next.db.previewRequests) (job : later.jobId = request.jobId)
    (sequence : later.row.sequence = request.row.sequence) (ended : later.row.status ≠ .running) :
    ∃ finish, action.finish? = some finish ∧ finish.Holds request := by
  rcases PreviewAction.run_commits ran with ⟨_, rfl⟩ | ⟨statement, commits⟩
  · obtain rfl := PreviewSystem.request_unique reached after member job sequence
    exact absurd running ended
  rw [commits.agrees.1]
  rcases (DatabaseAction.run_jobs commits.ran).requests (previewSystem_sound reached).distinct after with
    older | ⟨number, page, timestamp, _, inserted, unknown⟩ | ⟨row, older, change, about, numbered⟩
  · obtain rfl := PreviewSystem.request_unique reached older member job sequence
    exact absurd running ended
  · refine absurd ?_ (unknown request member job.symm).1
    rw [← sequence, inserted]
    rfl
  · have same := PreviewSystem.request_unique reached older member job (change.frame.1.symm.trans sequence)
    have row_eq : request.row = row := congrArg PreviewRequest.row same.symm
    rw [job] at about
    exact change.finished (row_eq ▸ running) ended about row_eq numbered

end Holder

section Once

variable {limits : Limits} {system next : PreviewSystem} {action : PreviewAction} {jobId : String}
  {page : Nat}

/-- The page is published, or its job is gone for good. -/
def JobRecord.Published (page : Nat) (record : JobRecord) : Prop :=
  record.job.row.status = .deleted ∨ ∃ row ∈ record.previews, row.page = page ∧ row.status = .succeeded

def PreviewSystem.Published (jobId : String) (page : Nat) (system : PreviewSystem) : Prop :=
  jobId ∈ system.jobIds ∧ ∀ record ∈ system.db.jobs, record.job.row.id = jobId → record.Published page

/-- A request that has succeeded is changed by no statement. -/
theorem PreviewRow.Change.unfinished {statement : DatabaseAction} {row after : PreviewRow}
    (change : row.Change statement after) : row.status ≠ .succeeded := by
  cases change with
  | requestedAgain updated | claimed updated =>
    have guarded := ((Option.ite_none_right_eq_some ..).mp updated).1.1
    simp [guarded]
  | recovered updated | reserved updated =>
    have guarded := ((Option.ite_none_right_eq_some ..).mp updated).1.1.1
    simp [guarded]
  | failed updated | published _ updated =>
    have guarded := (PreviewRow.finish_ended updated).1.1
    simp [guarded]

theorem JobRecord.Change.stays_published {statement : DatabaseAction} {record new : JobRecord}
    (change : record.Change limits statement new) (sound : record.Sound limits.maxOutputBytes)
    (published : record.Published page) : new.Published page := by
  rcases published with deleted | ⟨row, member, number, succeeded⟩
  · rcases change.step with same | step
    · exact .inl ((congrArg Lifecycle.status same).trans deleted)
    · exact .inl ((step.deletionSettled sound.settled).2 deleted)
  · cases change.previews with
    | same _ same => exact .inr ⟨row, same ▸ member, number, succeeded⟩
    | cleared _ _ deleted => exact .inl deleted
    | appended _ _ _ _ _ _ rows => exact .inr ⟨row, by simp [rows, member], number, succeeded⟩
    | updated _ _ _ updated changes =>
      obtain ⟨before, old, rest, after, rows, _, changed, eq⟩ := update?_eq_some updated
      refine .inr ⟨row, ?_, number, succeeded⟩
      rw [rows] at member
      rcases List.mem_append.mp member with left | right
      · simp [eq, left]
      · rcases List.mem_cons.mp right with rfl | later
        · exact absurd succeeded (changes changed).unfinished
        · simp [eq, later]

/-- A published page stays published, also when its job is forgotten. -/
theorem PreviewSystem.Published.run (reached : Reachable (previewMachine limits) system)
    (ran : action.run limits system = some next) (published : system.Published jobId page) :
    next.Published jobId page := by
  rcases PreviewAction.run_commits ran with ⟨_, rfl⟩ | ⟨statement, commits⟩
  · exact published
  refine ⟨by rw [commits.jobIds]; exact List.mem_append_right _ published.1, fun record member named => ?_⟩
  rcases (DatabaseAction.run_jobs commits.ran).records member with older | ⟨old, older, change, _⟩ |
    ⟨row, _, new, rfl⟩
  · exact published.2 record older named
  · exact change.stays_published (PreviewSystem.jobs_sound reached old older)
      (published.2 old older (change.follows.id_eq.symm.trans named))
  · exact absurd (named ▸ published.1) (commits.new _ new)

/-- What a publication finds in the database, and leaves in it. -/
structure PreviewSystem.Publication (system next : PreviewSystem) (jobId : String) (page : Nat)
    (run : PreviewRun) (size : Nat) (now : Timestamp) : Prop where
  found : ∃ record ∈ system.db.jobs, record.job.row.id = jobId ∧ record.job.row.status ≠ .deleted ∧
    ∃ row ∈ record.previews, row.page = page ∧ row.sequence = run.sequence ∧
      row.ownedBy run.workerId run.attempt ∧ (∃ expires ∈ row.leaseExpiresAt, expires > now) ∧
      size ≤ row.reservedBytes
  left : ∃ record ∈ next.db.jobs, record.job.row.id = jobId ∧
    ∃ row ∈ record.previews, row.page = page ∧ row.status = .succeeded ∧ row.reservedBytes = 0

/-- An artifact of a deleted job cannot be downloaded. -/
private theorem verifiedPdf_kept {cutoff : Timestamp} {pdf : ArtifactRow} {record : JobRecord}
    (verified : system.verifiedPdf cutoff jobId = some pdf)
    (first : system.db.jobs.find? (·.job.row.id == jobId) = some record) :
    record.job.row.status ≠ .deleted := by
  obtain ⟨_, _, rest⟩ := Option.bind_eq_some_iff.mp verified
  obtain ⟨found, named, rest⟩ := Option.bind_eq_some_iff.mp rest
  obtain rfl := Option.some.inj (first.symm.trans named)
  obtain ⟨artifact, downloadable, _⟩ := Option.bind_eq_some_iff.mp rest
  have available := List.find?_some downloadable
  simp only [Job.available, Bool.and_eq_true, Bool.or_eq_true, decide_eq_true_eq] at available
  intro deleted
  simp [deleted] at available

theorem PreviewSystem.publishes (reached : Reachable (previewMachine limits) system) {run : PreviewRun}
    {artifactId : String} {size : Nat} {sha256 : Sha256} {now cutoff : Timestamp}
    (ran : (PreviewAction.publish jobId page run artifactId size sha256 now cutoff).run limits system
      = some next) : system.Publication next jobId page run size now := by
  simp only [PreviewAction.run, PreviewSystem.publish, Option.bind_eq_bind, Option.bind_eq_some_iff,
    Option.guard_eq_some', exists_const] at ran
  obtain ⟨pdf, verified, asked, requested, numbered, committed⟩ := ran
  obtain ⟨_, db, updated, rfl⟩ := PreviewSystem.commit_eq_some committed
  obtain ⟨before, record, after, new, rows, first, named, change, later⟩ :=
    DatabaseAction.run_changed updated rfl
  have member : record ∈ system.db.jobs := by simp [rows]
  have sound := PreviewSystem.jobs_sound reached record member
  obtain ⟨left, row, ended, right, within, next, same, held, live, bytes, _, samePage, succeeded, freed⟩ :=
    change.publishes sound
  have present : row ∈ record.previews := by simp [within]
  obtain ⟨holder, holds, found⟩ := Option.bind_eq_some_iff.mp requested
  obtain rfl := Option.some.inj (first.symm.trans holds)
  have asks : asked.page = page := beq_iff_eq.mp (List.find?_some found :)
  obtain rfl := List.inj_on_of_nodup_map sound.distinct present (List.mem_of_find?_eq_some found)
    (same.trans numbered.symm)
  constructor
  · exact ⟨record, member, named, verifiedPdf_kept verified first, row, present, asks, same, held, live, bytes⟩
  · refine ⟨new, by simp [later], change.follows.id_eq.trans named, ended, by simp [next], ?_, succeeded, freed⟩
    exact samePage.trans asks

/-- A publication is not of a published page, and leaves the page published. -/
theorem PreviewSystem.Publication.once {run : PreviewRun} {size : Nat} {now : Timestamp}
    (publication : system.Publication next jobId page run size now)
    (reached : Reachable (previewMachine limits) system) (after : Reachable (previewMachine limits) next) :
    ¬ system.Published jobId page ∧ next.Published jobId page := by
  constructor
  · rintro ⟨_, published⟩
    obtain ⟨record, member, named, kept, row, within, number, _, held, _⟩ := publication.found
    rcases published record member named with deleted | ⟨other, among, same, succeeded⟩
    · exact kept deleted
    · obtain rfl := List.inj_on_of_nodup_map ((previewSystem_sound reached).pages record member) among within
        (same.trans number.symm)
      simp [held.1] at succeeded
  · obtain ⟨record, member, named, row, within, number, succeeded, _⟩ := publication.left
    have sound := previewSystem_sound after
    refine ⟨named ▸ sound.known record member, fun other among same => .inr ?_⟩
    obtain rfl := List.inj_on_of_nodup_map sound.distinct.jobs among member (same.trans named.symm)
    exact ⟨row, within, number, succeeded⟩

/-- In no run is a page of a job published twice. -/
theorem previewSystem_publishes_once {later : PreviewSystem} {actions : List PreviewAction}
    (reached : Reachable (previewMachine limits) system)
    (run : Run (previewMachine limits) system actions later) (jobId : String) (page : Nat) :
    actions.countP (·.publishes jobId page) ≤ 1 := by
  have publication {a b : PreviewSystem} {e : PreviewAction} (valid : Reachable (previewMachine limits) a)
      (taken : (previewMachine limits).Step a e b) (fires : e.publishes jobId page = true) :
      ¬ a.Published jobId page ∧ b.Published jobId page := by
    cases e with
    | publish job number run artifactId size sha256 now cutoff =>
      simp only [PreviewAction.publishes, Bool.and_eq_true, beq_iff_eq] at fires
      obtain ⟨rfl, rfl⟩ := fires
      exact (PreviewSystem.publishes valid taken).once valid (valid.step taken)
    | _ => cases fires
  exact run.count_le_one (Reachable (previewMachine limits)) (PreviewSystem.Published jobId page)
    (fun taken valid => valid.step taken) (fun valid taken fires => (publication valid taken fires).1)
    (fun valid taken published => published.run valid taken)
    (fun valid taken fires => (publication valid taken fires).2) reached

end Once

section Charge

variable {limits : Limits} {system next : PreviewSystem} {action : PreviewAction}

/-- A step of no renderer of a job adds to its output what it publishes for it. -/
theorem PreviewSystem.charged (reached : Reachable (previewMachine limits) system)
    (ran : action.run limits system = some next) {record after : JobRecord}
    (member : record ∈ system.db.jobs) (later : after ∈ next.db.jobs)
    (same : after.job.row.id = record.job.row.id) (idle : action.renders record.job.row.id = false) :
    after.job.row.outputSize.getD 0 =
      record.job.row.outputSize.getD 0 + action.publishedBytes record.job.row.id := by
  have distinct := (previewSystem_sound reached).distinct.jobs
  have distinctNext := (previewSystem_sound (reached.step ran)).distinct.jobs
  rcases PreviewAction.run_commits ran with ⟨silent, rfl⟩ | ⟨statement, commits⟩
  · obtain rfl := List.inj_on_of_nodup_map distinct later member same
    have none : action.publishedBytes after.job.row.id = 0 := by
      cases action with
      | publish => cases silent
      | _ => rfl
    rw [none, Nat.add_zero]
  obtain ⟨_, bytes, renders⟩ := commits.agrees
  rw [bytes]
  by_cases about : statement.jobId? = some record.job.row.id
  · obtain ⟨before, old, rest, new, rows, _, named, change, nextRows⟩ :=
      DatabaseAction.run_changed commits.ran about
    obtain rfl := List.inj_on_of_nodup_map distinct (by simp [rows]) member named
    obtain rfl := List.inj_on_of_nodup_map distinctNext later (by simp [nextRows])
      (same.trans change.follows.id_eq.symm)
    rw [if_pos about]
    rcases change.output (PreviewSystem.jobs_sound reached old member) with grown | ⟨rendering, _⟩
    · exact grown
    · simp [renders _ about rendering] at idle
  · rw [if_neg about, Nat.add_zero]
    rcases (DatabaseAction.run_jobs commits.ran).records later with older | ⟨old, older, change, named⟩ |
      ⟨row, _, new, rfl⟩
    · obtain rfl := List.inj_on_of_nodup_map distinct older member same
      rfl
    · exact absurd (by rw [named, change.follows.id_eq.symm, same]) about
    · have known := (previewSystem_sound reached).known record member
      exact absurd (same ▸ known) (commits.new _ new)

/-- A job that is gone does not come back under its id. -/
theorem PreviewSystem.stays_gone {later : PreviewSystem} {actions : List PreviewAction} {jobId : String}
    (reached : Reachable (previewMachine limits) system)
    (run : Run (previewMachine limits) system actions later) (known : jobId ∈ system.jobIds)
    (gone : ∀ record ∈ system.db.jobs, record.job.row.id ≠ jobId) :
    ∀ record ∈ later.db.jobs, record.job.row.id ≠ jobId := by
  refine (run.stable (P := fun system => jobId ∈ system.jobIds ∧
    ∀ record ∈ system.db.jobs, record.job.row.id ≠ jobId) reached ?_ ⟨known, gone⟩).2
  rintro system action next reached taken ⟨known, gone⟩
  rcases PreviewAction.run_commits taken with ⟨_, rfl⟩ | ⟨statement, commits⟩
  · exact ⟨known, gone⟩
  refine ⟨by rw [commits.jobIds]; exact List.mem_append_right _ known, fun record member named => ?_⟩
  rcases (DatabaseAction.run_jobs commits.ran).records member with older | ⟨old, older, change, _⟩ |
    ⟨row, _, new, rfl⟩
  · exact gone record older named
  · exact gone old older (change.follows.id_eq.symm.trans named)
  · exact commits.new _ new (named ▸ known)

/-- Over a run without a renderer of a job, its output grows by exactly the bytes published for it. -/
theorem previewSystem_charged {later : PreviewSystem} {actions : List PreviewAction}
    (reached : Reachable (previewMachine limits) system)
    (run : Run (previewMachine limits) system actions later) {record after : JobRecord}
    (member : record ∈ system.db.jobs) (ended : after ∈ later.db.jobs)
    (same : after.job.row.id = record.job.row.id)
    (idle : ∀ action ∈ actions, action.renders record.job.row.id = false) :
    after.job.row.outputSize.getD 0 = record.job.row.outputSize.getD 0 +
      total (·.publishedBytes record.job.row.id) actions := by
  induction run generalizing record with
  | nil system =>
    obtain rfl := List.inj_on_of_nodup_map (previewSystem_sound reached).distinct.jobs ended member same
    rfl
  | @cons system mid later action rest taken run ih =>
    have reachedMid := reached.step taken
    by_cases present : ∃ between ∈ mid.db.jobs, between.job.row.id = record.job.row.id
    · obtain ⟨between, within, named⟩ := present
      have first := PreviewSystem.charged reached taken member within named (idle action List.mem_cons_self)
      have further := ih reachedMid within ended (same.trans named.symm) fun action member => by
        rw [named]
        exact idle action (List.mem_cons_of_mem _ member)
      rw [further, first, named, total_cons, Nat.add_assoc]
    · have known : record.job.row.id ∈ mid.jobIds := by
        rcases PreviewAction.run_commits taken with ⟨_, rfl⟩ | ⟨statement, commits⟩
        · exact (previewSystem_sound reached).known record member
        · rw [commits.jobIds]
          exact List.mem_append_right _ ((previewSystem_sound reached).known record member)
      refine absurd same (PreviewSystem.stays_gone reachedMid run known ?_ after ended)
      exact fun between within named => present ⟨between, within, named⟩

end Charge

/-- What publication and accounting promise from one state on. -/
structure PreviewAccounting (limits : Limits) (system : PreviewSystem) : Prop where
  idle : ∀ request ∈ system.db.previewRequests, request.row.reservedBytes ≠ 0 →
    request.row.status = .running
  output : ∀ record ∈ system.db.jobs, record.job.row.outputSize.getD 0 ≤ limits.maxOutputBytes
  room : ∀ record ∈ system.db.jobs, ∀ row ∈ record.previews,
    record.job.row.outputSize.getD 0 + row.reservedBytes ≤ limits.maxOutputBytes
  holder : ∀ action next, PreviewAction.run limits system action = some next →
    ∀ finish, action.finish? = some finish → ∃ request ∈ system.db.previewRequests, finish.Holds request
  ended : ∀ action next, PreviewAction.run limits system action = some next →
    ∀ request ∈ system.db.previewRequests, request.row.status = .running →
    ∀ later ∈ next.db.previewRequests, later.jobId = request.jobId →
      later.row.sequence = request.row.sequence → later.row.status ≠ .running →
        ∃ finish, action.finish? = some finish ∧ finish.Holds request
  reserved : ∀ jobId page run artifactId size sha256 now cutoff next,
    PreviewAction.run limits system (.publish jobId page run artifactId size sha256 now cutoff) = some next →
      system.Publication next jobId page run size now
  once : ∀ actions later, Run (previewMachine limits) system actions later →
    ∀ jobId page, actions.countP (·.publishes jobId page) ≤ 1
  charged : ∀ actions later, Run (previewMachine limits) system actions later →
    ∀ record ∈ system.db.jobs, ∀ after ∈ later.db.jobs, after.job.row.id = record.job.row.id →
      (∀ action ∈ actions, action.renders record.job.row.id = false) →
        after.job.row.outputSize.getD 0 = record.job.row.outputSize.getD 0 +
          total (·.publishedBytes record.job.row.id) actions

/-- In every reachable state. -/
theorem preview_accounting {limits : Limits} {system : PreviewSystem}
    (reached : Reachable (previewMachine limits) system) : PreviewAccounting limits system where
  idle request member reserved := by
    obtain ⟨record, held, _, row⟩ := Database.mem_previewRequests.mp member
    by_contra stopped
    exact reserved ((PreviewSystem.jobs_sound reached record held).idle request.row row stopped)
  output record member := (previewSystem_budgeted reached record member).output
  room record member := (previewSystem_budgeted reached record member).reserved
  holder _ _ ran _ finishes := PreviewSystem.finished_by_holder ran finishes
  ended _ _ ran _ member running _ after job sequence ended :=
    PreviewSystem.ended_by_holder reached ran member running after job sequence ended
  reserved _ _ _ _ _ _ _ _ _ ran := PreviewSystem.publishes reached ran
  once _ _ run := previewSystem_publishes_once reached run
  charged _ _ run _ member _ ended same idle := previewSystem_charged reached run member ended same idle

/-- A page is published: its two bytes are charged to the job. -/
theorem preview_accounting_published :
    ∃ system : PreviewSystem, (system.db.jobs.any fun record => record.job.row.outputSize == some 3) = true ∧
      PreviewAccounting exampleLimits system := by
  have replayed : (replay? (PreviewAction.run exampleLimits) {}
      (renderedPreview ++ [.claim "worker_1" 7, .reserve "job_1" ⟨1, 1, "worker_1", 9⟩ 0,
        .publish "job_1" 2 ⟨1, 1, "worker_1", 9⟩ "artifact_2" 2 0 8 0])).any (fun system =>
      system.db.jobs.any fun record => record.job.row.outputSize == some 3) = true := by decide
  obtain ⟨system, run, check⟩ := exists_run_of_replay? replayed
  exact ⟨system, check, preview_accounting ⟨{}, _, ⟨rfl, rfl, rfl, rfl, rfl, rfl⟩, run⟩⟩

end LatexRenderer
