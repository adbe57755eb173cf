import LatexRenderer.Lifecycle.Activity
import LatexRenderer.Lifecycle.Identity
import LatexRenderer.Model.SourceStore

/-! # What a transaction does to the jobs and sources

`Moves` says once how the rows after a transaction come from those before it: every job is an earlier one,
one step of its lifecycle later at most, or a fresh one over a source that is kept, and a source is newly in
deletion only where its statement counted no reference.
-/

namespace LatexRenderer

open Machine

/-- The source is being deleted, or was. -/
def SourceRow.Closing (row : SourceRow) : Prop :=
  row.status = .deleting ∨ row.status = .deleted

/-- Every id is in its table once. -/
structure Database.Distinct (db : Database) : Prop where
  jobs : (db.jobs.map (·.job.row.id)).Nodup
  sources : (db.sources.map (·.id)).Nodup

/-- What a transaction does to the lifecycle of the job it is about. -/
def DatabaseAction.event : DatabaseAction → LifecycleEvent
  | .job _ action => action.event
  | .retrySvg _ => .requeueSvg
  | _ => .housekeeping

/-- The transaction is a statement on the source with this id that has counted no reference. -/
def DatabaseAction.countsNone (sourceId : String) (action : DatabaseAction) : Prop :=
  ∃ statement, action = .source sourceId statement ∧ statement.references? = some 0

/-- One job after a transaction: the same job, one step of its lifecycle later at most. -/
def JobRecord.Follows (event : LifecycleEvent) (before after : JobRecord) : Prop :=
  after = before ∨ after.job.row.identity = before.job.row.identity ∧
    Lifecycle.Step before.job.row.lifecycle event after.job.row.lifecycle

/-- How the jobs and sources after a transaction come from those before it. -/
structure Database.Moves (event : LifecycleEvent) (fresh : Option String) (free : String → Prop)
    (db next : Database) : Prop where
  distinct : next.Distinct
  jobs : ∀ record ∈ next.jobs, (∃ old ∈ db.jobs, old.Follows event record) ∨
    record.job.row.lifecycle.Fresh ∧ fresh = some record.job.row.id ∧
      ∀ source ∈ next.sources, record.job.row.sourceId = some source.id → ¬ source.Closing
  sources : ∀ source ∈ next.sources, source.Closing → ∃ old ∈ db.sources, old.id = source.id ∧
    (old.Closing ∨ free old.id ∧ next.jobs = db.jobs)

section Follows

variable {event : LifecycleEvent} {before after : JobRecord}

theorem JobRecord.Follows.identity_eq (follows : before.Follows event after) :
    after.job.row.identity = before.job.row.identity := by
  rcases follows with rfl | ⟨same, _⟩
  · rfl
  · exact same

theorem JobRecord.Follows.id_eq (follows : before.Follows event after) :
    after.job.row.id = before.job.row.id :=
  congrArg JobIdentity.id follows.identity_eq

theorem JobRecord.Follows.sourceId_eq (follows : before.Follows event after) :
    after.job.row.sourceId = before.job.row.sourceId :=
  congrArg JobIdentity.sourceId follows.identity_eq

theorem JobRecord.Follows.step (follows : before.Follows event after) :
    ∃ taken, Lifecycle.Step before.job.row.lifecycle taken after.job.row.lifecycle := by
  rcases follows with rfl | ⟨_, step⟩
  · exact ⟨.housekeeping, .housekeeping _⟩
  · exact ⟨event, step⟩

theorem JobRecord.Follows.of_row (same : after.job.row = before.job.row) :
    before.Follows .housekeeping after := by
  refine .inr ⟨congrArg JobRow.identity same, ?_⟩
  rw [same]
  exact .housekeeping _

end Follows

section Records

variable {maxOutputBytes : Nat} {record next : JobRecord}

theorem JobRecord.act_follows {action : JobAction} (acted : record.act maxOutputBytes action = some next) :
    record.Follows action.event next := by
  simp only [act, Option.ite_none_right_eq_some, Option.map_eq_some_iff] at acted
  obtain ⟨_, job, ran, rfl⟩ := acted
  exact .inr ⟨JobAction.run_identity ran, JobAction.run_step ran⟩

theorem JobRecord.updatePreview_follows {sequence : Nat} {change : PreviewRow → Option PreviewRow}
    (updated : record.updatePreview sequence change = some next) : record.Follows .housekeeping next := by
  obtain ⟨_, _, rfl⟩ := Option.map_eq_some_iff.mp updated
  exact .of_row rfl

theorem JobRecord.requestPreview_follows {sequence page : Nat} {timestamp : Timestamp}
    (requested : record.requestPreview sequence page timestamp = some next) : record.Follows .housekeeping next := by
  obtain ⟨_, eq⟩ := (Option.ite_none_left_eq_some ..).mp requested
  exact .of_row (by rw [← Option.some.inj eq])

theorem JobRecord.reservePreview_follows {run : PreviewRun}
    (reserved : record.reservePreview maxOutputBytes run = some next) : record.Follows .housekeeping next := by
  obtain ⟨_, updated⟩ := (Option.ite_none_right_eq_some ..).mp reserved
  obtain ⟨mid, changed, rfl⟩ := Option.map_eq_some_iff.mp updated
  obtain ⟨_, _, rfl⟩ := Option.map_eq_some_iff.mp changed
  exact .of_row rfl

theorem JobRecord.publishPreview_follows {run : PreviewRun} {page : ArtifactRow} {now : Timestamp}
    (published : record.publishPreview run page now = some next) : record.Follows .housekeeping next := by
  simp only [publishPreview, Option.bind_eq_bind, Option.bind_eq_some_iff, Option.some.injEq] at published
  obtain ⟨_, _, _, _, inserted, inserting, rfl⟩ := published
  have row := (Job.insertArtifact_frame inserting).1
  refine .inr ⟨?_, ?_⟩
  · change (inserted.row.charge page.size).identity = _
    rw [row]
    rfl
  · change Lifecycle.Step _ _ (inserted.row.charge page.size).lifecycle
    rw [row]
    exact .housekeeping _

end Records

/-- A guarded update that keeps the status or sets one that is not of a deletion. -/
private theorem guarded_closing {p none : Prop} [Decidable p] {row after changed : SourceRow}
    (updated : (if p then some changed else Option.none) = some after) (same : changed.id = row.id)
    (status : p → changed.status = row.status ∨ changed.status ∉ [.deleting, .deleted] ∨ none) :
    after.id = row.id ∧ (after.Closing → row.Closing ∨ none) := by
  obtain ⟨held, eq⟩ := (Option.ite_none_right_eq_some ..).mp updated
  rw [← Option.some.inj eq]
  refine ⟨same, fun closing => ?_⟩
  rcases status held with kept | outside | counted
  · exact .inl (by rwa [SourceRow.Closing, ← kept])
  · exact absurd closing (by simpa [SourceRow.Closing] using outside)
  · exact .inr counted

/-- A statement on a source keeps its id, and starts its deletion only when it counts no reference. -/
theorem SourceAction.run_closing {action : SourceAction} {row after : SourceRow}
    (ran : action.run row = some after) :
    after.id = row.id ∧ (after.Closing → row.Closing ∨ action.references? = some 0) := by
  cases action with
  | uploadStarted | uploadFinished | uploadFailed => exact guarded_closing ran rfl fun _ => .inr (.inl (by simp))
  | chunksStarted | stored =>
    obtain ⟨_, moved⟩ := (Option.ite_none_right_eq_some ..).mp ran
    exact guarded_closing moved rfl fun _ => .inr (.inl (by simp))
  | claimUploadLease | releaseUploadLease | extendUploadLease | commitUploadOffset | endRetention =>
    exact guarded_closing ran rfl fun _ => .inl rfl
  | completeUpload | expireReservation | failDeletion =>
    exact guarded_closing ran rfl fun _ => .inr (.inl (by simp))
  | markDeleting | claimDeletion =>
    exact guarded_closing ran rfl fun held => .inr (.inr (congrArg some held.2))
  | finishDeletion => exact guarded_closing ran rfl fun held => .inr (.inr (congrArg some held.2.2))

section Transactions

variable {db next : Database} {event : LifecycleEvent} {fresh : Option String} {free : String → Prop}

namespace Database

/-- Sources that a transaction leaves alone. -/
private theorem sources_kept (same : next.sources = db.sources) :
    ∀ source ∈ next.sources, source.Closing → ∃ old ∈ db.sources, old.id = source.id ∧
      (old.Closing ∨ free old.id ∧ next.jobs = db.jobs) :=
  fun source member closing => ⟨source, same ▸ member, rfl, .inl closing⟩

/-- Jobs that a transaction leaves alone, or some of them. -/
private theorem jobs_kept (fewer : ∀ record ∈ next.jobs, record ∈ db.jobs) :
    ∀ record ∈ next.jobs, (∃ old ∈ db.jobs, old.Follows event record) ∨
      record.job.row.lifecycle.Fresh ∧ fresh = some record.job.row.id ∧
        ∀ source ∈ next.sources, record.job.row.sourceId = some source.id → ¬ source.Closing :=
  fun record member => .inl ⟨record, fewer record member, .inl rfl⟩

theorem updateJob_moves {jobId : String} {change : JobRecord → Option JobRecord}
    (updated : db.updateJob jobId change = some next) (distinct : db.Distinct)
    (follows : ∀ {record after}, change record = some after → record.Follows event after) :
    Moves event fresh free db next := by
  obtain ⟨jobs, found, rfl⟩ := Option.map_eq_some_iff.mp updated
  refine ⟨⟨?_, distinct.sources⟩, ?_, sources_kept rfl⟩
  · change (jobs.map (·.job.row.id)).Nodup
    rw [update?_map found fun changed => (follows changed).id_eq]
    exact distinct.jobs
  · obtain ⟨before, row, after, new, rows, _, changed, rfl⟩ := update?_eq_some found
    intro record member
    rcases List.mem_append.mp member with left | right
    · exact .inl ⟨record, by simp [rows, left], .inl rfl⟩
    · rcases List.mem_cons.mp right with rfl | later
      · exact .inl ⟨row, by simp [rows], follows changed⟩
      · exact .inl ⟨record, by simp [rows, later], .inl rfl⟩

theorem insertJob_moves {row : JobRow} (inserted : db.insertJob row = some next) (distinct : db.Distinct)
    (new : row.lifecycle.Fresh) (named : fresh = some row.id)
    (kept : ∀ source ∈ db.sources, row.sourceId = some source.id → ¬ source.Closing) :
    Moves event fresh free db next := by
  simp only [insertJob, Option.ite_none_left_eq_some, Option.some.injEq, List.any_eq_true, not_exists,
    not_and, beq_iff_eq] at inserted
  obtain ⟨unknown, rfl⟩ := inserted
  refine ⟨⟨nodup_map_append distinct.jobs unknown, distinct.sources⟩, ?_, sources_kept rfl⟩
  intro record member
  rcases List.mem_append.mp member with older | added
  · exact .inl ⟨record, older, .inl rfl⟩
  · obtain rfl := List.mem_singleton.mp added
    exact .inr ⟨new, named, kept⟩

theorem insertJob_frame {row : JobRow} (inserted : db.insertJob row = some next) :
    next.sources = db.sources := by
  obtain ⟨_, eq⟩ := (Option.ite_none_left_eq_some ..).mp inserted
  rw [← Option.some.inj eq]

/-- What inserting a source leaves as it was; the new row is not in deletion. -/
structure SourceInserted (id : String) (db next : Database) : Prop where
  distinct : next.Distinct
  jobs : next.jobs = db.jobs
  rows : ∀ source ∈ next.sources, source.Closing → source ∈ db.sources ∧ source.id ≠ id

theorem insertSource_inserted {input : SourceReservation}
    (inserted : db.insertSource (.insertReserved input) = some next) (distinct : db.Distinct) :
    SourceInserted input.id db next := by
  simp only [insertSource, Option.ite_none_left_eq_some, Option.some.injEq, List.any_eq_true, not_exists,
    not_and, beq_iff_eq] at inserted
  obtain ⟨unknown, rfl⟩ := inserted
  refine ⟨⟨distinct.jobs, nodup_map_append distinct.sources unknown⟩, rfl, ?_⟩
  intro source member closing
  rcases List.mem_append.mp member with older | added
  · exact ⟨older, unknown source older⟩
  · rw [List.mem_singleton.mp added] at closing
    simp [SourceRow.Closing, SourceRow.insertReserved] at closing

theorem SourceInserted.moves {id : String} (inserted : SourceInserted id db next) :
    Moves event fresh free db next :=
  ⟨inserted.distinct, jobs_kept fun _ member => inserted.jobs ▸ member,
    fun source member closing => ⟨source, (inserted.rows source member closing).1, rfl, .inl closing⟩⟩

theorem fewer_moves (jobs : List.Sublist next.jobs db.jobs)
    (sources : List.Sublist next.sources db.sources) (distinct : db.Distinct) :
    Moves event fresh free db next := by
  refine ⟨⟨distinct.jobs.sublist (jobs.map _), distinct.sources.sublist (sources.map _)⟩,
    jobs_kept fun _ => (jobs.subset ·), fun source member closing => ?_⟩
  exact ⟨source, sources.subset member, rfl, .inl closing⟩

/-- A statement on a source starts its deletion only where nothing refers to it. -/
theorem updateSource_moves {sourceId : String} {action : SourceAction}
    (updated : db.updateSource sourceId (action.run ·) = some next) (distinct : db.Distinct)
    (counted : action.references? = some 0 → free sourceId) : Moves event fresh free db next := by
  obtain ⟨sources, found, rfl⟩ := Option.map_eq_some_iff.mp updated
  refine ⟨⟨distinct.jobs, ?_⟩, jobs_kept fun _ => id, ?_⟩
  · change (sources.map (·.id)).Nodup
    rw [update?_map found fun changed => (SourceAction.run_closing changed).1]
    exact distinct.sources
  · obtain ⟨before, row, after, new, rows, first, changed, rfl⟩ := update?_eq_some found
    obtain ⟨named, closes⟩ := SourceAction.run_closing changed
    have keyed : row.id = sourceId := beq_iff_eq.mp (List.find?_some first :)
    intro source member closing
    rcases List.mem_append.mp member with left | right
    · exact ⟨source, by simp [rows, left], rfl, .inl closing⟩
    · rcases List.mem_cons.mp right with rfl | later
      · refine ⟨row, by simp [rows], named.symm, ?_⟩
        rcases closes closing with older | none
        · exact .inl older
        · exact .inr ⟨by rw [keyed]; exact counted none, rfl⟩
      · exact ⟨source, by simp [rows, later], rfl, .inl closing⟩

/-- A ready source is not in deletion, and no other row has its id. -/
private theorem ready_kept {sourceId : String} {source : SourceRow} (distinct : db.Distinct)
    (found : db.sources.find? (·.id == sourceId) = some source) (ready : source.status = .ready) :
    ∀ other ∈ db.sources, sourceId = other.id → ¬ other.Closing := by
  intro other member named
  have member' := List.mem_of_find?_eq_some found
  have keyed : source.id = sourceId := beq_iff_eq.mp (List.find?_some found :)
  obtain rfl := List.inj_on_of_nodup_map distinct.sources member member' (named.symm.trans keyed.symm)
  simp [SourceRow.Closing, ready]

theorem createRender_moves {limits : Limits} {input : TicketInput}
    (created : db.createRender limits input = some next) (distinct : db.Distinct)
    (named : fresh = some input.jobId) : Moves event fresh free db next := by
  simp only [createRender, Option.bind_eq_bind, Option.bind_eq_some_iff] at created
  obtain ⟨_, _, reserved, source, job⟩ := created
  have first := insertSource_inserted source distinct
  have second : Moves event fresh free reserved next :=
    insertJob_moves job first.distinct (Job.Inserted.reserved _).fresh named fun row member same closing =>
      (first.rows row member closing).2 (Option.some.inj same).symm
  refine ⟨second.distinct, ?_, fun row member closing => ?_⟩
  · rw [← first.jobs]
    exact second.jobs
  · rw [(insertJob_frame job)] at member
    exact ⟨row, (first.rows row member closing).1, rfl, .inl closing⟩

theorem createRenderFromSource_moves {texts : AdmissionTexts} {limits : Limits} {input : SourceJobInput}
    (created : db.createRenderFromSource texts limits input = some next) (distinct : db.Distinct)
    (named : fresh = some input.jobId) : Moves event fresh free db next := by
  simp only [createRenderFromSource, Option.bind_eq_bind, Option.bind_eq_some_iff, Option.guard_eq_some',
    exists_const] at created
  obtain ⟨_, _, source, found, _, row, queued, job⟩ := created
  have new := (Job.Inserted.queued _ _ _ row queued).fresh
  simp only [insertQueued?, Option.ite_none_right_eq_some, Option.some.injEq] at queued
  obtain ⟨⟨_, ready, _⟩, rfl⟩ := queued
  have keyed : source.id = input.sourceId := beq_iff_eq.mp (List.find?_some found :)
  exact insertJob_moves job distinct new named fun other member same =>
    ready_kept distinct found ready other member (keyed.symm.trans (Option.some.inj same))

theorem retryRender_moves {texts : AdmissionTexts} {limits : Limits} {input : RetryJobInput}
    (created : db.retryRender texts limits input = some next) (distinct : db.Distinct)
    (named : fresh = some input.jobId) : Moves event fresh free db next := by
  simp only [retryRender, Option.bind_eq_bind, Option.bind_eq_some_iff, Option.guard_eq_some',
    exists_const] at created
  obtain ⟨_, sourceId, sourced, _, _, source, found, ⟨ready, _⟩, job⟩ := created
  refine insertJob_moves job distinct (Job.Inserted.retry (insertRetryInput limits input)).fresh named ?_
  intro other member same
  exact ready_kept distinct found ready other member (Option.some.inj (sourced.symm.trans same))

theorem retrySvg_moves {limits : Limits} {input : SvgRetryInput}
    (retried : db.retrySvg limits input = some next) (distinct : db.Distinct) :
    Moves .requeueSvg fresh free db next := by
  simp only [retrySvg, Option.bind_eq_bind, Option.bind_eq_some_iff, Option.guard_eq_some',
    exists_const] at retried
  obtain ⟨_, _, _, _, _, _, _, updated⟩ := retried
  refine updateJob_moves updated distinct fun {record after} changed => ?_
  obtain ⟨job, requeued, rfl⟩ := Option.map_eq_some_iff.mp changed
  have ran : JobAction.run limits.maxOutputBytes record.job (.requeueSvg _) = some job := requeued
  exact .inr ⟨JobAction.run_identity ran, JobAction.run_step ran⟩

end Database

theorem DatabaseAction.run_moves {limits : Limits} {action : DatabaseAction}
    (ran : action.run limits db = some next) (distinct : db.Distinct) :
    Database.Moves action.event action.newJobId? (action.countsNone ·) db next := by
  cases action with
  | createRender input => exact Database.createRender_moves ran distinct rfl
  | createRenderFromSource texts input => exact Database.createRenderFromSource_moves ran distinct rfl
  | retryRender texts input => exact Database.retryRender_moves ran distinct rfl
  | retrySvg input => exact Database.retrySvg_moves ran distinct
  | reserveSource input =>
    simp only [DatabaseAction.run, Database.reserveSource, Option.bind_eq_bind,
      Option.bind_eq_some_iff] at ran
    obtain ⟨_, _, _, _, inserted⟩ := ran
    exact (Database.insertSource_inserted inserted distinct).moves
  | source sourceId action =>
    exact Database.updateSource_moves ran distinct fun none => ⟨action, rfl, none⟩
  | job jobId action => exact Database.updateJob_moves ran distinct JobRecord.act_follows
  | requestPreview => exact Database.updateJob_moves ran distinct JobRecord.requestPreview_follows
  | requestPreviewAgain | claimPreview | recoverPreview | failPreview =>
    exact Database.updateJob_moves ran distinct JobRecord.updatePreview_follows
  | reservePreview jobId run =>
    simp only [DatabaseAction.run, Database.reservePreview, Option.bind_eq_bind,
      Option.bind_eq_some_iff] at ran
    obtain ⟨_, _, _, _, updated⟩ := ran
    exact Database.updateJob_moves updated distinct JobRecord.reservePreview_follows
  | publishPreview => exact Database.updateJob_moves ran distinct JobRecord.publishPreview_follows
  | reserveTree =>
    obtain ⟨_, eq⟩ := (Option.ite_none_right_eq_some ..).mp ran
    rw [← Option.some.inj eq]
    exact Database.fewer_moves (.refl _) (.refl _) distinct
  | publishTree | invalidateTree | collectTree =>
    obtain ⟨trees, _, rfl⟩ := Option.map_eq_some_iff.mp ran
    exact Database.fewer_moves (.refl _) (.refl _) distinct
  | discardReservation | deleteTree | forgetJob | setMaintenanceMode =>
    cases ran
    refine Database.fewer_moves ?_ ?_ distinct
    all_goals first | exact List.filter_sublist | exact .refl _

end Transactions

end LatexRenderer
