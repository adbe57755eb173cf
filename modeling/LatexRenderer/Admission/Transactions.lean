import LatexRenderer.Admission.Quotas

/-! # Every transaction keeps the quotas

One lemma for each kind of transaction: it keeps the database sound, and the meters grow by no more than
the transaction found room for.
-/

namespace LatexRenderer

open Machine

/-- A transaction kept the database sound and grew the meters by no more than this. -/
structure Database.Grows (maxOutputBytes : Nat) (growth : Quota → Nat) (db next : Database) : Prop where
  sound : next.Sound maxOutputBytes
  usage : ∀ quota, next.usage quota ≤ db.usage quota + growth quota

variable {limits : Limits} {maxOutputBytes : Nat} {db next : Database} {growth : Quota → Nat}

namespace Database

/-- A transaction on one job grows the meters as its record grows. -/
theorem updateJob_grows {jobId : String} {change : JobRecord → Option JobRecord} {record : JobRecord}
    (first : db.jobs.find? (·.job.row.id == jobId) = some record)
    (updated : db.updateJob jobId change = some next) (sound : db.Sound maxOutputBytes)
    (grows : ∀ {after}, change record = some after → after.Sound maxOutputBytes ∧
      ∀ quota, after.weight quota ≤ record.weight quota + growth quota) :
    Grows maxOutputBytes growth db next := by
  obtain ⟨jobs, found, rfl⟩ := Option.map_eq_some_iff.mp updated
  obtain ⟨before, old, after, new, rows, firstOld, changed, rfl⟩ := update?_eq_some found
  obtain rfl := Option.some.inj (first.symm.trans firstOld)
  obtain ⟨newSound, heavier⟩ := grows changed
  refine ⟨⟨fun row member => ?_, sound.sources⟩, fun quota => ?_⟩
  · rcases List.mem_append.mp member with left | right
    · exact sound.jobs row (by rw [rows]; exact List.mem_append_left _ left)
    · rcases List.mem_cons.mp right with rfl | later
      · exact newSound
      · exact sound.jobs row (by rw [rows]; simp [later])
  · have same := heavier quota
    rw [usage_eq, usage_eq, rows]
    simp only [total_append, total_cons]
    omega

/-- A transaction on one job that adds no weight to its record adds none to the meters. -/
theorem updateJob_steady {jobId : String} {change : JobRecord → Option JobRecord}
    (updated : db.updateJob jobId change = some next) (sound : db.Sound maxOutputBytes)
    (steady : ∀ {record after}, change record = some after → record.Sound maxOutputBytes →
      after.Sound maxOutputBytes ∧ ∀ quota, after.weight quota ≤ record.weight quota) :
    Grows maxOutputBytes (fun _ => 0) db next := by
  obtain ⟨jobs, found, _⟩ := Option.map_eq_some_iff.mp updated
  obtain ⟨record, _, first, _⟩ := total_update? found
  exact updateJob_grows first updated sound fun changed =>
    steady changed (sound.jobs record (List.mem_of_find?_eq_some first))

/-- A statement on one source adds nothing to the meters. -/
theorem updateSource_steady {sourceId : String} {action : SourceAction}
    (updated : db.updateSource sourceId (action.run ·) = some next) (sound : db.Sound maxOutputBytes) :
    Grows maxOutputBytes (fun _ => 0) db next := by
  obtain ⟨sources, found, rfl⟩ := Option.map_eq_some_iff.mp updated
  refine ⟨⟨sound.jobs, ?_⟩, fun quota => ?_⟩
  · exact update?_forall found (fun _ _ ran settled => (SourceAction.run_source ran settled).1) sound.sources
  · obtain ⟨row, after, first, _, ran, totals⟩ := total_update? found
    have lighter := (SourceAction.run_source ran
      (sound.sources row (List.mem_of_find?_eq_some first))).2 quota
    have same := totals (SourceRow.weight quota)
    rw [usage_eq, usage_eq]
    change total (JobRecord.weight quota) db.jobs + total (SourceRow.weight quota) sources +
      total (SourceTreeRow.weight quota) db.trees ≤ _
    omega

/-- A new job weighs one active job with its reserved output. -/
theorem insertJob_grows {row : JobRow} (inserted : db.insertJob row = some next)
    (sound : db.Sound maxOutputBytes) (fresh : row.lifecycle.Fresh)
    (reserved : row.reservedOutputBytes = maxOutputBytes) (referenced : row.sourceId.isSome)
    (empty : row.outputSize = none) :
    Grows maxOutputBytes (jobGrowth row.userId row.serviceAccountId maxOutputBytes) db next := by
  simp only [insertJob, Option.ite_none_left_eq_some, Option.some.injEq] at inserted
  obtain ⟨_, rfl⟩ := inserted
  refine ⟨⟨fun record member => ?_, sound.sources⟩, fun quota => ?_⟩
  · rcases List.mem_append.mp member with older | new
    · exact sound.jobs record older
    · rw [List.mem_singleton.mp new]
      exact .inserted fresh reserved
  · have bytes : JobRecord.bytes { job := { row := row } } ≤ maxOutputBytes := by
      have output : row.outputBytes ≤ maxOutputBytes := by
        unfold JobRow.outputBytes
        rw [empty, reserved]
        split <;> simp
      have source : row.sourceBytes = 0 := by simp [JobRow.sourceBytes, Option.isSome_iff_ne_none.mp referenced]
      have previews : JobRecord.previewBytes { job := { row := row } } = 0 := rfl
      simp only [JobRecord.bytes, previews, JobRow.storageBytes, source]
      split <;> omega
    have weight := JobRecord.weight_le_growth bytes quota
    rw [usage_eq, usage_eq]
    simp only [total_append, total_cons, total_nil]
    change JobRecord.weight quota _ ≤ jobGrowth row.userId row.serviceAccountId _ quota at weight
    omega

/-- A new source adds its size to its owner's storage. -/
theorem insertSource_grows {input : SourceReservation}
    (inserted : db.insertSource (.insertReserved input) = some next) (sound : db.Sound maxOutputBytes) :
    Grows maxOutputBytes (storageGrowth input.ownerUserId input.size) db next := by
  simp only [insertSource, Option.ite_none_left_eq_some, Option.some.injEq] at inserted
  obtain ⟨_, rfl⟩ := inserted
  refine ⟨⟨sound.jobs, fun row member => ?_⟩, fun quota => ?_⟩
  · rcases List.mem_append.mp member with older | new
    · exact sound.sources row older
    · rw [List.mem_singleton.mp new]
      simp [SourceRow.DeletionSettled, SourceRow.insertReserved]
  · have weight : (SourceRow.insertReserved input).weight quota ≤
        storageGrowth input.ownerUserId input.size quota := by
      cases quota <;> simp [SourceRow.weight, SourceRow.insertReserved, storageGrowth]
    rw [usage_eq, usage_eq]
    simp only [total_append, total_cons, total_nil]
    omega

theorem fewer_steady (jobs : List.Sublist next.jobs db.jobs) (sources : List.Sublist next.sources db.sources)
    (trees : List.Sublist next.trees db.trees) (sound : db.Sound maxOutputBytes) :
    Grows maxOutputBytes (fun _ => 0) db next := by
  refine ⟨⟨fun record member => sound.jobs record (jobs.subset member),
    fun row member => sound.sources row (sources.subset member)⟩, fun quota => ?_⟩
  have fewerJobs := total_le_of_sublist (JobRecord.weight quota) jobs
  have fewerSources := total_le_of_sublist (SourceRow.weight quota) sources
  have fewerTrees := total_le_of_sublist (SourceTreeRow.weight quota) trees
  rw [usage_eq, usage_eq]
  omega

/-- A transaction that found room for what it adds. -/
def Admitted (limits : Limits) (db next : Database) : Prop :=
  ∃ growth, Admits db.usage limits.quota growth ∧ Grows limits.maxOutputBytes growth db next

theorem Grows.admitted (grows : Grows limits.maxOutputBytes (fun _ => 0) db next) :
    Admitted limits db next :=
  ⟨_, fun _ => .inl rfl, grows⟩

/-- A source and a job together add what the admission of both asked for. -/
private theorem storageGrowth_add (userId serviceAccountId : String) (first second : Nat) (quota : Quota) :
    storageGrowth userId first quota + jobGrowth userId serviceAccountId second quota =
      jobGrowth userId serviceAccountId (first + second) quota := by
  cases quota with
  | storage user =>
    simp only [storageGrowth, jobGrowth]
    split <;> simp
  | _ => simp [storageGrowth, jobGrowth]

theorem createRender_admitted {input : TicketInput} (created : db.createRender limits input = some next)
    (sound : db.Sound limits.maxOutputBytes) : Admitted limits db next := by
  simp only [createRender, Option.bind_eq_bind, Option.bind_eq_some_iff] at created
  obtain ⟨_, accepted, reserved, source, job⟩ := created
  have first := insertSource_grows source sound
  have second := insertJob_grows job first.sound (Job.Inserted.reserved _).fresh rfl rfl rfl
  refine ⟨_, assertAccepting_admits accepted, second.sound, fun quota => ?_⟩
  have sum := storageGrowth_add input.userId input.serviceAccountId input.size limits.maxOutputBytes quota
  have grownFirst := first.usage quota
  have grownSecond := second.usage quota
  change _ ≤ _ + storageGrowth input.userId input.size quota at grownFirst
  change _ ≤ _ + jobGrowth input.userId input.serviceAccountId limits.maxOutputBytes quota at grownSecond
  omega

theorem createRenderFromSource_admitted {texts : AdmissionTexts} {input : SourceJobInput}
    (created : db.createRenderFromSource texts limits input = some next)
    (sound : db.Sound limits.maxOutputBytes) : Admitted limits db next := by
  simp only [createRenderFromSource, Option.bind_eq_bind, Option.bind_eq_some_iff, Option.guard_eq_some',
    exists_const] at created
  obtain ⟨_, accepted, source, _, _, row, queued, job⟩ := created
  have fresh := (Job.Inserted.queued _ _ _ row queued).fresh
  simp only [insertQueued?, Option.ite_none_right_eq_some, Option.some.injEq] at queued
  obtain ⟨_, rfl⟩ := queued
  exact ⟨_, assertAccepting_admits accepted, insertJob_grows job sound fresh rfl rfl rfl⟩

theorem retryRender_admitted {texts : AdmissionTexts} {input : RetryJobInput}
    (created : db.retryRender texts limits input = some next) (sound : db.Sound limits.maxOutputBytes) :
    Admitted limits db next := by
  simp only [retryRender, Option.bind_eq_bind, Option.bind_eq_some_iff, Option.guard_eq_some',
    exists_const] at created
  obtain ⟨_, sourceId, sourced, _, accepted, source, _, _, job⟩ := created
  refine ⟨_, assertAccepting_admits accepted, ?_⟩
  have fresh := (Job.Inserted.retry (insertRetryInput limits input)).fresh
  have referenced : (insertRetry (insertRetryInput limits input)).sourceId.isSome := by
    simp [insertRetry, insertRetryInput, sourced]
  have grown := insertJob_grows job sound fresh rfl referenced rfl
  exact grown

theorem retrySvg_admitted {input : SvgRetryInput} (retried : db.retrySvg limits input = some next)
    (sound : db.Sound limits.maxOutputBytes) : Admitted limits db next := by
  simp only [retrySvg, Option.bind_eq_bind, Option.bind_eq_some_iff, Option.guard_eq_some',
    exists_const] at retried
  obtain ⟨record, first, owned, _, accepted, source, _, updated⟩ := retried
  refine ⟨_, assertAccepting_admits accepted, updateJob_grows first updated sound fun changed => ?_⟩
  obtain ⟨job, requeued, rfl⟩ := Option.map_eq_some_iff.mp changed
  rw [← owned]
  exact JobRecord.requeueSvg_sound requeued rfl (sound.jobs record (List.mem_of_find?_eq_some first))

theorem reserveSource_admitted {input : SourceReservation}
    (reserved : db.reserveSource limits input = some next) (sound : db.Sound limits.maxOutputBytes) :
    Admitted limits db next := by
  simp only [reserveSource, Option.bind_eq_bind, Option.bind_eq_some_iff] at reserved
  obtain ⟨_, room, _, _, inserted⟩ := reserved
  exact ⟨_, assertStorage_admits room, insertSource_grows inserted sound⟩

/-- Room for bytes of a user is room for what they add to the meters. -/
private theorem storage_admits {userId : String} {bytes : Nat}
    (room : db.storageUsageForUser userId + bytes ≤ limits.maxUserStorageBytes) :
    Admits db.usage limits.quota (storageGrowth userId bytes) := by
  refine assertStorage_admits ?_
  rw [assertStorage, if_neg (Nat.not_lt.mpr room)]
  rfl

theorem reservePreview_admitted {jobId : String} {run : PreviewRun}
    (reserved : db.reservePreview limits jobId run = some next) (sound : db.Sound limits.maxOutputBytes) :
    Admitted limits db next := by
  simp only [reservePreview, Option.bind_eq_bind, Option.bind_eq_some_iff, Option.guard_eq_some',
    exists_const] at reserved
  obtain ⟨record, first, room, updated⟩ := reserved
  refine ⟨_, storage_admits room, updateJob_grows first updated sound fun changed => ?_⟩
  exact JobRecord.reservePreview_sound changed (sound.jobs record (List.mem_of_find?_eq_some first))

theorem reserveTree_admitted {row : SourceTreeRow} {jobId : String} {generation : Nat}
    (reserved : db.reserveTree limits row jobId generation = some next)
    (sound : db.Sound limits.maxOutputBytes) : Admitted limits db next := by
  simp only [reserveTree, Option.ite_none_right_eq_some, Option.some.injEq] at reserved
  obtain ⟨⟨_, _, _, _, room, _⟩, rfl⟩ := reserved
  refine ⟨_, storage_admits room, ⟨sound.jobs, sound.sources⟩, fun quota => ?_⟩
  have weight : row.weight quota ≤ storageGrowth row.ownerUserId row.reservedBytes quota := by
    cases quota <;> simp [SourceTreeRow.weight, storageGrowth]
  rw [usage_eq, usage_eq]
  simp only [total_append, total_cons, total_nil]
  omega

/-- A statement on a cached tree adds nothing to the meters. -/
theorem setTreeStatus_steady {treeId : String} {source : List SourceTreeStatus} {target : SourceTreeStatus}
    (updated : db.setTreeStatus treeId source target = some next) (sound : db.Sound maxOutputBytes) :
    Grows maxOutputBytes (fun _ => 0) db next := by
  obtain ⟨trees, found, rfl⟩ := Option.map_eq_some_iff.mp updated
  refine ⟨⟨sound.jobs, sound.sources⟩, fun quota => ?_⟩
  obtain ⟨row, after, _, _, changed, totals⟩ := total_update? found
  have same : after.weight quota = row.weight quota := by
    obtain ⟨_, eq⟩ := (Option.ite_none_right_eq_some ..).mp changed
    rw [← Option.some.inj eq]
    cases quota <;> rfl
  have moved := totals (SourceTreeRow.weight quota)
  rw [usage_eq, usage_eq]
  change total (JobRecord.weight quota) db.jobs + total (SourceRow.weight quota) db.sources +
    total (SourceTreeRow.weight quota) trees ≤ _
  omega

end Database

/-- Every transaction keeps the database sound and finds room for what it adds. -/
theorem DatabaseAction.run_admitted {action : DatabaseAction} (ran : action.run limits db = some next)
    (sound : db.Sound limits.maxOutputBytes) : Database.Admitted limits db next := by
  cases action with
  | createRender input => exact Database.createRender_admitted ran sound
  | createRenderFromSource texts input => exact Database.createRenderFromSource_admitted ran sound
  | retryRender texts input => exact Database.retryRender_admitted ran sound
  | retrySvg input => exact Database.retrySvg_admitted ran sound
  | reserveSource input => exact Database.reserveSource_admitted ran sound
  | source sourceId action => exact (Database.updateSource_steady ran sound).admitted
  | job jobId action =>
    exact (Database.updateJob_steady ran sound fun changed recordSound =>
      ⟨JobRecord.act_sound changed recordSound, JobRecord.act_weight changed recordSound⟩).admitted
  | requestPreview jobId sequence page timestamp =>
    exact (Database.updateJob_steady ran sound fun changed recordSound =>
      JobRecord.requestPreview_sound changed recordSound).admitted
  | requestPreviewAgain jobId sequence timestamp =>
    exact (Database.updateJob_steady ran sound fun changed recordSound =>
      ⟨JobRecord.updatePreview_sound changed PreviewRow.requestAgain_step recordSound,
        JobRecord.updatePreview_weight changed PreviewRow.requestAgain_step recordSound⟩).admitted
  | claimPreview jobId sequence workerId timestamp =>
    exact (Database.updateJob_steady ran sound fun changed recordSound =>
      ⟨JobRecord.updatePreview_sound changed PreviewRow.claim_step recordSound,
        JobRecord.updatePreview_weight changed PreviewRow.claim_step recordSound⟩).admitted
  | recoverPreview jobId sequence attempt staleOwner workerId timestamp =>
    exact (Database.updateJob_steady ran sound fun changed recordSound =>
      ⟨JobRecord.updatePreview_sound changed PreviewRow.claimRecovery_step recordSound,
        JobRecord.updatePreview_weight changed PreviewRow.claimRecovery_step recordSound⟩).admitted
  | failPreview jobId sequence attempt workerId errorCode timestamp =>
    exact (Database.updateJob_steady ran sound fun changed recordSound =>
      ⟨JobRecord.updatePreview_sound changed (fun finished => (PreviewRow.finish_step finished).1) recordSound,
        JobRecord.updatePreview_weight changed (fun finished => (PreviewRow.finish_step finished).1)
          recordSound⟩).admitted
  | reservePreview jobId run => exact Database.reservePreview_admitted ran sound
  | publishPreview jobId run page timestamp =>
    exact (Database.updateJob_steady ran sound fun changed recordSound =>
      JobRecord.publishPreview_sound changed recordSound).admitted
  | reserveTree row jobId generation => exact Database.reserveTree_admitted ran sound
  | publishTree | invalidateTree | collectTree =>
    exact (Database.setTreeStatus_steady ran sound).admitted
  | discardReservation | deleteTree | forgetJob | setMaintenanceMode =>
    cases ran
    refine (Database.fewer_steady ?_ ?_ ?_ sound).admitted
    all_goals first | exact List.filter_sublist | exact .refl _

theorem sound_of_reachable (reached : Reachable (databaseMachine limits) db) :
    db.Sound limits.maxOutputBytes := by
  refine reached.induction (P := fun db => db.Sound limits.maxOutputBytes) ?_ ?_
  · rintro db ⟨jobs, sources, _⟩
    exact ⟨by simp [jobs], by simp [sources]⟩
  · intro before action after _ ran sound
    obtain ⟨_, _, grown⟩ := DatabaseAction.run_admitted ran sound
    exact grown.sound

/-- The database is a metered machine: its meters are the admission counters, with the settings as
limits. -/
theorem databaseMachine_metered (limits : Limits) :
    Metered (databaseMachine limits) Database.usage limits.quota where
  init := by
    rintro db ⟨jobs, sources, trees⟩ quota
    simp [Database.usage_eq, jobs, sources, trees]
  step := by
    intro before action after reached ran
    obtain ⟨growth, admits, grown⟩ := DatabaseAction.run_admitted ran (sound_of_reachable reached)
    exact ⟨growth, admits, grown.usage⟩

/-- In every reachable state of the database no user's storage, not the queue, no user's queue and no
service account's queue exceeds its limit. -/
theorem quotas_hold (limits : Limits) (db : Database) (reached : Reachable (databaseMachine limits) db) :
    (∀ userId, db.storageUsageForUser userId ≤ limits.maxUserStorageBytes) ∧
      db.countActive ≤ limits.maxQueueLength ∧
      (∀ userId, db.countActiveForUser userId ≤ limits.maxUserActiveJobs) ∧
      ∀ serviceAccountId, db.countActiveForServiceAccount serviceAccountId ≤ maxAccountActiveJobs := by
  have bounded := (databaseMachine_metered limits).bounded reached
  exact ⟨fun userId => bounded (.storage userId), bounded .queue, fun userId => bounded (.userQueue userId),
    fun serviceAccountId => bounded (.accountQueue serviceAccountId)⟩

def exampleLimits : Limits where
  maxQueueLength := 2
  maxUserActiveJobs := 20
  maxUserStorageBytes := 25
  maxOutputBytes := 10
  globalTreeBytes := 0
  userTreeBytes := 0

/-- A ticket with a source of 5 bytes, and a second job over the uploaded source. -/
def exampleTransactions : List DatabaseAction :=
  [.createRender ⟨"job_1", "source_1", "user_1", "sa_1", "key_1", "1", 5, 0, 0, 600000, [.pdf]⟩,
    .source "source_1" (.uploadStarted 1), .job "job_1" (.uploadStarted 1),
    .source "source_1" (.uploadFinished 2 3600002 ["main.tex"]), .job "job_1" (.uploadFinished 2),
    .createRenderFromSource ticketTexts
      ⟨"job_2", "source_1", "user_1", "sa_1", "key_1", "1", "main.tex", 3, none, [.pdf], 1⟩]

/-- Two jobs over one source fill a storage of 25 bytes exactly. -/
theorem quotas_hold_full :
    ∃ db : Database, db.storageUsageForUser "user_1" = 25 ∧ db.countActive = 2 ∧
      db.storageUsageForUser "user_1" ≤ 25 ∧ db.countActive ≤ 2 := by
  have replayed : (replay? (DatabaseAction.run exampleLimits) {} exampleTransactions).any (fun db =>
      db.storageUsageForUser "user_1" == 25 && db.countActive == 2) = true := by decide
  obtain ⟨db, run, check⟩ := exists_run_of_replay? replayed
  simp only [Bool.and_eq_true, beq_iff_eq] at check
  have held := quotas_hold exampleLimits db ⟨{}, _, ⟨rfl, rfl, rfl⟩, run⟩
  exact ⟨db, check.1, check.2, held.1 "user_1", held.2.1⟩

end LatexRenderer
