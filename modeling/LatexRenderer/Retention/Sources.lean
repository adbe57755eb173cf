import LatexRenderer.Admission.Transactions
import LatexRenderer.Retention.Effects

/-! # A source is kept for as long as something refers to it

The invariant relates every source in deletion to the jobs and revisions that name it, and every claim a
worker was given to its job. It holds in every run. What a run may still do is open the files of a source
that is being removed: a worker opens them without looking at its job again.
-/

namespace LatexRenderer

open Machine Lifecycle

/-- The invariant of the store. -/
structure SourceStore.Kept (store : SourceStore) : Prop where
  distinct : store.db.Distinct
  recorded : ∀ record ∈ store.db.jobs, record.job.row.lifecycle.ExpiryRecorded
  released : ∀ source ∈ store.db.sources, source.Closing → ∀ record ∈ store.db.jobs,
    record.job.row.sourceId = some source.id → record.job.row.lifecycle.Released
  projects : ∀ revision ∈ store.revisions, ∃ project ∈ store.projects, project.id = revision.projectId
  revisions : ∀ source ∈ store.db.sources, source.Closing → ∀ revision ∈ store.revisions,
    revision.sourceId = source.id → ∀ project ∈ store.projects, project.id = revision.projectId →
      project.deletedAt ≠ none
  claims : ∀ claim ∈ store.claims, ∀ record ∈ store.db.jobs, record.job.row.id = claim.jobId →
    record.job.row.sourceId = claim.sourceId ∧ record.job.row.lifecycle.Uploaded

section Counts

variable {tables : ProjectTables} {sourceId : String}

/-- No job that still counts refers to a source without references. -/
theorem ProjectTables.jobs_of_unreferenced (none : tables.sourceReferenceCount sourceId = 0) :
    ∀ record ∈ tables.db.jobs, record.job.row.sourceId = some sourceId →
      record.job.row.status = .deleted ∨ record.job.row.status = .expired := by
  intro record member same
  have jobs : tables.jobReferences sourceId Option.none = 0 := by
    unfold sourceReferenceCount at none
    omega
  have uncounted := List.countP_eq_zero.mp jobs record member
  simp only [same, beq_self_eq_true, Option.all_none, Bool.and_true, Bool.true_and, List.mem_cons,
    List.not_mem_nil, or_false, decide_not, Bool.not_eq_true', decide_eq_false_iff_not,
    not_not] at uncounted
  exact uncounted

/-- No revision of an undeleted project refers to a source without references. -/
theorem ProjectTables.revisions_of_unreferenced (none : tables.sourceReferenceCount sourceId = 0) :
    ∀ revision ∈ tables.revisions, revision.sourceId = sourceId → ∀ project ∈ tables.projects,
      project.id = revision.projectId → project.deletedAt ≠ Option.none := by
  intro revision member same project within owner undeleted
  have revisions : tables.revisionReferences sourceId Option.none = 0 := by
    unfold sourceReferenceCount at none
    omega
  have uncounted := List.countP_eq_zero.mp revisions revision member
  have live : tables.liveProject revision = Option.none := by simpa [same] using uncounted
  have missing := List.find?_eq_none.mp live project within
  simp [owner, undeleted] at missing

end Counts

section Steps

variable {limits : Limits} {store next : SourceStore} {event : LifecycleEvent} {free : String → Prop}

/-- The statements of a transaction count the references of the current tables. -/
theorem SourceStore.free_of_countsNone {action : DatabaseAction} {sourceId : String}
    (none : (store.counting action).countsNone sourceId) : store.sourceReferenceCount sourceId = 0 := by
  obtain ⟨statement, same, references⟩ := none
  cases action with
  | source id action =>
    simp only [counting, DatabaseAction.source.injEq] at same
    obtain ⟨rfl, rfl⟩ := same
    cases action <;> simp_all [SourceAction.counting, SourceAction.references?]
  | _ => cases same

theorem SourceStore.newJobId?_counting (action : DatabaseAction) :
    (store.counting action).newJobId? = action.newJobId? := by
  cases action <;> rfl

/-- A transaction keeps the claims it finds, and `claimNext` returns an uploaded job. -/
private theorem transact_claims {action : DatabaseAction} {db : Database} (kept : store.Kept)
    (sound : store.db.Sound limits.maxOutputBytes)
    (ran : (store.counting action).run limits store.db = some db)
    (unknown : (action.newJobId?.any fun id => store.claims.any (·.jobId == id)) = false)
    (moves : Database.Moves event action.newJobId? free store.db db) :
    ∀ claim ∈ store.claimsAfter action, ∀ record ∈ db.jobs, record.job.row.id = claim.jobId →
      record.job.row.sourceId = claim.sourceId ∧ record.job.row.lifecycle.Uploaded := by
  have known : ∀ claim ∈ store.claims, ∀ record ∈ db.jobs, record.job.row.id = claim.jobId →
      record.job.row.sourceId = claim.sourceId ∧ record.job.row.lifecycle.Uploaded := by
    intro claim member record within named
    rcases moves.jobs record within with ⟨old, before, follows⟩ | ⟨_, fresh, _⟩
    · obtain ⟨source, uploaded⟩ := kept.claims claim member old before (follows.id_eq.symm.trans named)
      obtain ⟨_, step⟩ := follows.step
      exact ⟨follows.sourceId_eq.trans source, step.uploaded uploaded⟩
    · rw [fresh, Option.any_some, List.any_eq_false] at unknown
      exact absurd (beq_iff_eq.mpr named.symm) (unknown claim member)
  unfold SourceStore.claimsAfter
  split
  next jobId workerId now expires queuedBefore previewRunning =>
    split
    next record first =>
      intro claim member
      rcases List.mem_cons.mp member with rfl | older
      · obtain ⟨jobs, found, rfl⟩ := Option.map_eq_some_iff.mp ran
        obtain ⟨old, new, before, keyed, changed, others⟩ := update?_of_nodup found kept.distinct.jobs
        have placed := List.mem_of_find?_eq_some first
        have named : record.job.row.id = jobId := beq_iff_eq.mp (List.find?_some first :)
        obtain rfl := List.inj_on_of_nodup_map kept.distinct.jobs before placed (keyed.trans named.symm)
        intro row within same
        rcases (others row).mp within with rfl | ⟨_, apart⟩
        · have follows := JobRecord.act_follows changed
          obtain ⟨_, step⟩ := follows.step
          obtain ⟨_, job, taken, rfl⟩ := JobRecord.act_eq_some changed
          refine ⟨follows.sourceId_eq, ?_⟩
          have row := Job.updateStatus_row taken
          simp only [JobRow.claimNext, Option.ite_none_left_eq_some, Option.ite_none_right_eq_some] at row
          exact step.uploaded ((sound.jobs old before).live.uploaded row.2.1.1)
        · exact absurd same apart
      · exact known claim older
    next => exact known
  next => exact known

theorem SourceStore.transact_kept {action : DatabaseAction} (kept : store.Kept)
    (sound : store.db.Sound limits.maxOutputBytes)
    (transacted : store.transact limits action = some next) : next.Kept := by
  obtain ⟨unknown, changed⟩ := (Option.ite_none_left_eq_some ..).mp transacted
  obtain ⟨db, ran, rfl⟩ := Option.map_eq_some_iff.mp changed
  have moves := DatabaseAction.run_moves ran kept.distinct
  rw [SourceStore.newJobId?_counting] at moves
  refine ⟨moves.distinct, ?_, ?_, kept.projects, ?_, ?_⟩
  · intro record member
    rcases moves.jobs record member with ⟨old, before, follows⟩ | ⟨fresh, _⟩
    · obtain ⟨_, step⟩ := follows.step
      exact step.expiryRecorded (kept.recorded old before)
    · exact fresh.expiryRecorded
  · intro source member closing record within same
    obtain ⟨old, before, named, older | ⟨free, unchanged⟩⟩ := moves.sources source member closing
    · rcases moves.jobs record within with ⟨first, earlier, follows⟩ | ⟨_, _, apart⟩
      · obtain ⟨_, step⟩ := follows.step
        refine step.released (sound.jobs first earlier).settled ?_
        refine kept.released old before older first earlier ?_
        rw [← follows.sourceId_eq, same, named]
      · exact absurd closing (apart source member same)
    · rw [unchanged] at within
      refine (kept.recorded record within).released ?_
      exact ProjectTables.jobs_of_unreferenced (SourceStore.free_of_countsNone free) record within (by rw [same, named])
  · intro source member closing revision within same
    obtain ⟨old, before, named, older | ⟨free, _⟩⟩ := moves.sources source member closing
    · exact kept.revisions old before older revision within (same.trans named.symm)
    · exact ProjectTables.revisions_of_unreferenced (SourceStore.free_of_countsNone free) revision within
        (same.trans named.symm)
  · exact transact_claims kept sound ran (by simpa using unknown) moves

/-- Projects that keep their ids, and their deletion if they were deleted. -/
structure ProjectsMoved (before after : List ProjectRow) : Prop where
  forward : ∀ project ∈ before, ∃ later ∈ after, later.id = project.id
  back : ∀ later ∈ after, ∃ project ∈ before, project.id = later.id ∧
    (project.deletedAt ≠ none → later.deletedAt ≠ none)

/-- Changes of projects that only ever delete them keep the invariant. -/
private theorem SourceStore.Kept.projects_moved (kept : store.Kept) {projects : List ProjectRow}
    (moved : ProjectsMoved store.projects projects) :
    SourceStore.Kept { store with projects := projects } := by
  refine ⟨kept.distinct, kept.recorded, kept.released, ?_, ?_, kept.claims⟩
  · intro revision member
    obtain ⟨project, within, same⟩ := kept.projects revision member
    obtain ⟨later, after, named⟩ := moved.forward project within
    exact ⟨later, after, named.trans same⟩
  · intro source member closing revision within same later after owner
    obtain ⟨project, before, named, deleted⟩ := moved.back later after
    exact deleted (kept.revisions source member closing revision within same project before
      (named.trans owner))

private theorem touch_moved (projectId : String) (timestamp : Timestamp) (projects : List ProjectRow) :
    ProjectsMoved projects
      (projects.map fun row => if row.id = projectId then row.touch timestamp else row) := by
  have touched : ∀ row : ProjectRow,
      (if row.id = projectId then row.touch timestamp else row).id = row.id ∧
        (if row.id = projectId then row.touch timestamp else row).deletedAt = row.deletedAt := by
    intro row
    split <;> exact ⟨rfl, rfl⟩
  constructor
  · intro project member
    exact ⟨_, List.mem_map_of_mem member, (touched project).1⟩
  · intro later member
    obtain ⟨project, before, rfl⟩ := List.mem_map.mp member
    exact ⟨project, before, (touched project).1.symm, fun deleted => by rwa [(touched project).2]⟩

/-- A committed change of a project replaced one row. -/
theorem ProjectTables.changeProject_eq {tables after : ProjectTables} {projectId : String}
    {change : ProjectRow → Option ProjectRow}
    (changed : (tables.changeProject projectId change).toOption = some after) :
    ∃ projects, update? (·.id == projectId) change tables.projects = some projects ∧
      after = { tables with projects := projects } := by
  unfold changeProject at changed
  cases writable : tables.assertWritable with
  | error error => simp [writable, Except.toOption, bind, Except.bind] at changed
  | ok value =>
    simp only [writable, bind, Except.bind] at changed
    cases found : update? (·.id == projectId) change tables.projects with
    | none => simp [found, Except.toOption, throw, throwThe, MonadExceptOf.throw] at changed
    | some projects =>
      simp only [found, pure, Except.pure, Except.toOption, Option.some.injEq] at changed
      exact ⟨projects, rfl, changed.symm⟩

/-- A committed creation added one undeleted row. -/
theorem ProjectTables.create_eq {tables after : ProjectTables} {id ownerUserId displayName : String}
    {timestamp : Timestamp}
    (created : (tables.create id ownerUserId displayName timestamp).toOption = some after) :
    ∃ project : ProjectRow, project.id = id ∧
      after = { tables with projects := tables.projects ++ [project] } := by
  unfold create at created
  cases writable : tables.assertWritable with
  | error error => simp [writable, Except.toOption, bind, Except.bind] at created
  | ok value =>
    simp only [writable, bind, Except.bind, pure, Except.pure, Except.toOption, Option.some.injEq] at created
    exact ⟨_, rfl, created.symm⟩

/-- The update of one project that keeps its id and its deletion. -/
private theorem SourceStore.changeProject_kept (kept : store.Kept) {projectId : String}
    {change : ProjectRow → Option ProjectRow} {tables : ProjectTables}
    (changed : (store.changeProject projectId change).toOption = some tables)
    (keeps : ∀ {row after}, change row = some after →
      after.id = row.id ∧ (row.deletedAt ≠ none → after.deletedAt ≠ none)) :
    SourceStore.Kept { store with toProjectTables := tables } := by
  obtain ⟨projects, found, rfl⟩ := ProjectTables.changeProject_eq changed
  refine kept.projects_moved ?_
  obtain ⟨before, row, after, new, rows, _, updated, rfl⟩ := update?_eq_some found
  obtain ⟨same, deleted⟩ := keeps updated
  rw [rows]
  constructor
  · intro project member
    rcases List.mem_append.mp member with left | right
    · exact ⟨project, by simp [left], rfl⟩
    · rcases List.mem_cons.mp right with rfl | later
      · exact ⟨new, by simp, same⟩
      · exact ⟨project, by simp [later], rfl⟩
  · intro project member
    rcases List.mem_append.mp member with left | right
    · exact ⟨project, by simp [left], rfl, id⟩
    · rcases List.mem_cons.mp right with rfl | later
      · exact ⟨row, by simp, same.symm, deleted⟩
      · exact ⟨project, by simp [later], rfl, id⟩

/-- `attachRevision` found the project undeleted and the source ready, and inserted a revision unless there
was one. -/
theorem ProjectTables.attachRevision_cases {tables after : ProjectTables} {input : AttachRevisionInput}
    (attached : (tables.attachRevision input).toOption = some after) :
    ∃ project source, tables.getOwned input.projectId input.userId = some project ∧
      tables.getOwnedReady input.sourceId input.userId input.timestamp = some source ∧
      (after = tables.touch project.id input.timestamp ∨
        after = (tables.insertRevision input).touch project.id input.timestamp) := by
  unfold attachRevision at attached
  cases writable : tables.assertWritable with
  | error error => simp [writable, Except.toOption, bind, Except.bind] at attached
  | ok value =>
    simp only [writable, bind, Except.bind] at attached
    split at attached
    · simp [Except.toOption, throw, throwThe, MonadExceptOf.throw] at attached
    cases owned : tables.getOwned input.projectId input.userId with
    | none => simp [owned, Except.toOption, throw, throwThe, MonadExceptOf.throw] at attached
    | some project =>
      cases ready : tables.getOwnedReady input.sourceId input.userId input.timestamp with
      | none => simp [owned, ready, Except.toOption, throw, throwThe, MonadExceptOf.throw] at attached
      | some source =>
        refine ⟨project, source, rfl, rfl, ?_⟩
        simp only [owned, ready] at attached
        split at attached
        · simp [Except.toOption, throw, throwThe, MonadExceptOf.throw] at attached
        · split at attached
          · exact .inl (Option.some.inj attached).symm
          · exact .inr (Option.some.inj attached).symm

/-- An attached revision keeps the invariant: its source is ready and its project is there. -/
theorem SourceStore.attachRevision_kept (kept : store.Kept) {input : AttachRevisionInput}
    {tables : ProjectTables} (attached : (store.attachRevision input).toOption = some tables) :
    SourceStore.Kept { store with toProjectTables := tables } := by
  obtain ⟨project, source, owned, ready, rfl | rfl⟩ := ProjectTables.attachRevision_cases attached
  · exact kept.projects_moved (touch_moved ..)
  have readyStatus := List.find?_some ready
  simp only [Bool.and_eq_true, beq_iff_eq, decide_eq_true_eq] at readyStatus
  have projectId := List.find?_some owned
  simp only [Bool.and_eq_true, beq_iff_eq, decide_eq_true_eq] at projectId
  have inserted : SourceStore.Kept { store with revisions := (store.insertRevision input).revisions } := by
    refine ⟨kept.distinct, kept.recorded, kept.released, ?_, ?_, kept.claims⟩
    · intro revision member
      rcases List.mem_append.mp member with older | added
      · exact kept.projects revision older
      · rw [List.mem_singleton.mp added]
        exact ⟨project, List.mem_of_find?_eq_some owned, projectId.1⟩
    · intro closing within closes revision member same
      rcases List.mem_append.mp member with older | added
      · exact kept.revisions closing within closes revision older same
      · rw [List.mem_singleton.mp added] at same
        have named : closing.id = source.id := same.symm.trans readyStatus.1.1.symm
        obtain rfl := List.inj_on_of_nodup_map kept.distinct.sources within
          (List.mem_of_find?_eq_some ready) named
        have status : closing.status = .ready := readyStatus.2.1
        simp [SourceRow.Closing, status] at closes
  exact inserted.projects_moved (touch_moved ..)

theorem SourceStore.create_kept (kept : store.Kept) {id ownerUserId displayName : String}
    {timestamp : Timestamp} {tables : ProjectTables}
    (unknown : ∀ project ∈ store.projects, project.id ≠ id)
    (created : (store.create id ownerUserId displayName timestamp).toOption = some tables) :
    SourceStore.Kept { store with toProjectTables := tables } := by
  obtain ⟨added, fresh, rfl⟩ := ProjectTables.create_eq created
  refine ⟨kept.distinct, kept.recorded, kept.released, ?_, ?_, kept.claims⟩
  · intro revision member
    obtain ⟨project, within, same⟩ := kept.projects revision member
    exact ⟨project, by simp [within], same⟩
  · intro source member closing revision within same project after owner
    rcases List.mem_append.mp after with older | new
    · exact kept.revisions source member closing revision within same project older owner
    · obtain ⟨present, before, named⟩ := kept.projects revision within
      rw [List.mem_singleton.mp new, fresh] at owner
      exact absurd (named.trans owner.symm) (unknown present before)

end Steps

/-- The tables of the store go through the transactions of the database. -/
theorem sourceStoreMachine_simulates (limits : Limits) :
    Simulates (sourceStoreMachine limits) (databaseMachine limits) (·.db) where
  init start := ⟨start.1, start.2.1, start.2.2.1⟩
  step := by
    intro store action next _ taken
    cases action with
    | transact action =>
      obtain ⟨_, changed⟩ := (Option.ite_none_left_eq_some ..).mp taken
      obtain ⟨db, ran, rfl⟩ := Option.map_eq_some_iff.mp changed
      exact .inr ⟨store.counting action, ran⟩
    | createProject id ownerUserId displayName timestamp =>
      obtain ⟨_, changed⟩ := (Option.ite_none_left_eq_some ..).mp taken
      obtain ⟨tables, created, rfl⟩ := Option.map_eq_some_iff.mp changed
      obtain ⟨_, _, rfl⟩ := ProjectTables.create_eq created
      exact .inl rfl
    | renameProject | deleteProject =>
      obtain ⟨tables, changed, rfl⟩ := Option.map_eq_some_iff.mp taken
      obtain ⟨_, _, rfl⟩ := ProjectTables.changeProject_eq changed
      exact .inl rfl
    | attachRevision input =>
      obtain ⟨_, changed⟩ := (Option.ite_none_left_eq_some ..).mp taken
      obtain ⟨tables, attached, rfl⟩ := Option.map_eq_some_iff.mp changed
      obtain ⟨_, _, _, _, rfl | rfl⟩ := ProjectTables.attachRevision_cases attached
      · exact .inl rfl
      · exact .inl rfl
    | openSource claim =>
      obtain ⟨_, eq⟩ := (Option.ite_none_right_eq_some ..).mp taken
      rw [← Option.some.inj eq]
      exact .inl rfl

theorem SourceStoreAction.run_openings {limits : Limits} {store next : SourceStore}
    {action : SourceStoreAction} (other : ∀ claim, action ≠ .openSource claim)
    (taken : action.run limits store = some next) : next.openings = store.openings := by
  cases action with
  | openSource claim => exact absurd rfl (other claim)
  | transact | createProject | attachRevision =>
    obtain ⟨_, changed⟩ := (Option.ite_none_left_eq_some ..).mp taken
    obtain ⟨_, _, rfl⟩ := Option.map_eq_some_iff.mp changed
    rfl
  | renameProject | deleteProject =>
    obtain ⟨_, _, rfl⟩ := Option.map_eq_some_iff.mp taken
    rfl

theorem kept_of_reachable {limits : Limits} {store : SourceStore}
    (reached : Reachable (sourceStoreMachine limits) store) : store.Kept := by
  refine reached.induction ?_ ?_
  · rintro store ⟨jobs, sources, _, projects, revisions, claims, _⟩
    exact ⟨⟨by simp [jobs], by simp [sources]⟩, by simp [jobs], by simp [sources], by simp [revisions],
      by simp [sources], by simp [claims]⟩
  · intro before action next reached taken kept
    have sound := sound_of_reachable ((sourceStoreMachine_simulates limits).reachable reached)
    cases action with
    | transact action => exact SourceStore.transact_kept kept sound taken
    | createProject id ownerUserId displayName timestamp =>
      obtain ⟨unknown, changed⟩ := (Option.ite_none_left_eq_some ..).mp taken
      obtain ⟨tables, created, rfl⟩ := Option.map_eq_some_iff.mp changed
      refine SourceStore.create_kept kept ?_ created
      simpa using unknown
    | renameProject projectId ownerUserId displayName timestamp =>
      obtain ⟨tables, renamed, rfl⟩ := Option.map_eq_some_iff.mp taken
      refine SourceStore.changeProject_kept kept renamed fun changed => ?_
      obtain ⟨_, eq⟩ := (Option.ite_none_right_eq_some ..).mp changed
      rw [← Option.some.inj eq]
      exact ⟨rfl, id⟩
    | deleteProject id ownerUserId timestamp =>
      obtain ⟨tables, deleted, rfl⟩ := Option.map_eq_some_iff.mp taken
      refine SourceStore.changeProject_kept kept deleted fun changed => ?_
      obtain ⟨_, eq⟩ := (Option.ite_none_right_eq_some ..).mp changed
      rw [← Option.some.inj eq]
      exact ⟨rfl, fun _ => Option.some_ne_none _⟩
    | attachRevision input =>
      obtain ⟨_, changed⟩ := (Option.ite_none_left_eq_some ..).mp taken
      obtain ⟨tables, attached, rfl⟩ := Option.map_eq_some_iff.mp changed
      exact SourceStore.attachRevision_kept kept attached
    | openSource claim =>
      obtain ⟨_, eq⟩ := (Option.ite_none_right_eq_some ..).mp taken
      rw [← Option.some.inj eq]
      exact ⟨kept.distinct, kept.recorded, kept.released, kept.projects, kept.revisions, kept.claims⟩

/-- Nothing that still counts refers to a source in deletion, and no worker has opened one. -/
structure SourceRetention (store : SourceStore) : Prop where
  jobs : ∀ source ∈ store.db.sources, source.status = .deleting ∨ source.status = .deleted →
    ∀ record ∈ store.db.jobs, record.job.row.sourceId = some source.id →
      record.job.row.status ∈ [.deleting, .deleted, .expired]
  revisions : ∀ source ∈ store.db.sources, source.status = .deleting ∨ source.status = .deleted →
    ∀ revision ∈ store.revisions, revision.sourceId = source.id → ∀ project ∈ store.projects,
      project.id = revision.projectId → project.deletedAt.isSome
  openings : ∀ opening ∈ store.openings, ∀ source ∈ opening.source,
    source.status ≠ .deleting ∧ source.status ≠ .deleted

/-- A worker opens its source only while the row of its job is there and not deleted. -/
def OpensUndeleted (store : SourceStore) (action : SourceStoreAction) : Prop :=
  ∀ claim, action = .openSource claim → ∃ record ∈ store.db.jobs, record.job.row.id = claim.jobId ∧
    record.job.row.status ≠ .deleted

/-- A worker whose job is not deleted opens a source that is not in deletion. -/
theorem SourceStore.Kept.opened {store : SourceStore} (kept : store.Kept) {claim : WorkerClaim}
    (given : claim ∈ store.claims) {record : JobRecord} (member : record ∈ store.db.jobs)
    (named : record.job.row.id = claim.jobId) (undeleted : record.job.row.status ≠ .deleted)
    {sourceId : String} (sourced : claim.sourceId = some sourceId) {source : SourceRow}
    (found : store.db.sources.find? (·.id == sourceId) = some source) : ¬ source.Closing := by
  intro closing
  obtain ⟨same, uploaded⟩ := kept.claims claim given record member named
  have keyed : source.id = sourceId := beq_iff_eq.mp (List.find?_some found :)
  have released := kept.released source (List.mem_of_find?_eq_some found) closing record member
    (by rw [same, sourced, keyed])
  exact undeleted (uploaded.deleted released)

/-- In every run, nothing that still counts refers to a source in deletion; and where each opening meets
the condition, no worker ever opens a source in deletion. -/
theorem source_retention {limits : Limits} {store : SourceStore}
    (reached : Reachable ((sourceStoreMachine limits).restrict OpensUndeleted) store) :
    SourceRetention store := by
  have kept := kept_of_reachable reached.of_restrict
  refine ⟨?_, ?_, ?_⟩
  · intro source member closing record within same
    have status := (kept.released source member closing record within same).status
    simpa [JobRow.lifecycle] using status
  · intro source member closing revision within same project present owner
    exact Option.isSome_iff_ne_none.mpr
      (kept.revisions source member closing revision within same project present owner)
  · refine reached.induction (P := fun store => ∀ opening ∈ store.openings, ∀ source ∈ opening.source,
      source.status ≠ .deleting ∧ source.status ≠ .deleted) ?_ ?_
    · rintro store ⟨_, _, _, _, _, _, openings⟩
      simp [openings]
    · intro before action after reached taken opened
      obtain ⟨taken, allowed⟩ := taken
      cases action with
      | openSource claim =>
        obtain ⟨given, eq⟩ := (Option.ite_none_right_eq_some ..).mp taken
        rw [← Option.some.inj eq]
        intro opening member source present
        rcases List.mem_cons.mp member with rfl | older
        · obtain ⟨record, within, named, undeleted⟩ := allowed claim rfl
          obtain ⟨sourceId, sourced, found⟩ := Option.bind_eq_some_iff.mp present
          exact not_or.mp ((kept_of_reachable reached.of_restrict).opened given within named undeleted sourced
            found)
        · exact opened opening older source present
      | _ =>
        have same := SourceStoreAction.run_openings (by simp) taken
        rw [same]
        exact opened

/-- A ticket's source and job are uploaded, and a worker claims the job. -/
def claimedJob : List SourceStoreAction :=
  [.transact (.createRender ⟨"job_1", "source_1", "user_1", "sa_1", "key_1", "1", 5, 0, 0, 600000, [.pdf]⟩),
    .transact (.source "source_1" (.uploadStarted 1)), .transact (.job "job_1" (.uploadStarted 1)),
    .transact (.source "source_1" (.uploadFinished 2 3600002 ["main.tex"])),
    .transact (.job "job_1" (.uploadFinished 2)),
    .transact (.job "job_1" (.claimNext "worker_1" 3 33 none false))]

/-- The claim that the worker was given. -/
def exampleClaim : WorkerClaim :=
  ⟨"job_1", some "source_1", ⟨"worker_1", 1⟩⟩

/-- The worker opens its source while it validates the job. -/
theorem source_retention_validating :
    ∃ store, store.openings.length = 1 ∧ SourceRetention store := by
  have replayed : (replay? (SourceStoreAction.run exampleLimits) {} claimedJob).any (fun store =>
      decide (exampleClaim ∈ store.claims) && store.openings.isEmpty &&
        store.db.jobs.any fun record => record.job.row.id == "job_1" && record.job.row.status == .validating)
      = true := by decide
  obtain ⟨store, run, check⟩ := exists_run_of_replay? replayed
  simp only [Bool.and_eq_true, decide_eq_true_eq, List.any_eq_true, beq_iff_eq, List.isEmpty_iff] at check
  obtain ⟨⟨given, unopened⟩, record, member, named, validating⟩ := check
  have silent := run.restrict OpensUndeleted (by
    intro action member before claim opening
    simp [claimedJob, opening] at member)
  have opened : SourceStoreAction.run exampleLimits store (.openSource exampleClaim) = some _ := if_pos given
  have last : ((sourceStoreMachine exampleLimits).restrict OpensUndeleted).Step store
      (.openSource exampleClaim) _ :=
    ⟨opened, fun claim same => ⟨record, member, by cases same; exact named, by simp [validating]⟩⟩
  have reached : Reachable ((sourceStoreMachine exampleLimits).restrict OpensUndeleted) store :=
    ⟨{}, _, ⟨rfl, rfl, rfl, rfl, rfl, rfl, rfl⟩, silent⟩
  exact ⟨_, by simp [unopened], source_retention (reached.step last)⟩

/-- The user cancels and deletes the job while it is being validated; the cleanup script deletes the job,
claims its source and removes its files; then the worker opens them. -/
def openedUnderRemoval : List SourceStoreAction :=
  claimedJob ++
    [.transact (.job "job_1" (.cancel 4)), .transact (.job "job_1" (.markDeleting 5)),
      .transact (.job "job_1" (.claimDeletion ⟨6, 0, false, false⟩)),
      .transact (.job "job_1" (.finishDeletion 7)), .transact (.source "source_1" (.endRetention 0 7)),
      .transact (.source "source_1" (.claimDeletion 0 8)), .openSource exampleClaim]

/-- Without the condition a worker opens a source whose files the cleanup script is removing. -/
theorem source_opened_under_removal :
    ¬ ∀ store, Reachable (sourceStoreMachine exampleLimits) store → SourceRetention store := by
  intro retained
  have replayed : (replay? (SourceStoreAction.run exampleLimits) {} openedUnderRemoval).any (fun store =>
      store.openings.any fun opening => opening.source.any (·.status == .deleting)) = true := by decide
  obtain ⟨store, run, check⟩ := exists_run_of_replay? replayed
  have reached : Reachable (sourceStoreMachine exampleLimits) store :=
    ⟨{}, _, ⟨rfl, rfl, rfl, rfl, rfl, rfl, rfl⟩, run⟩
  obtain ⟨opening, member, found⟩ := List.any_eq_true.mp check
  obtain ⟨source, present, deleting⟩ := (Option.any_eq_true ..).mp found
  exact ((retained store reached).openings opening member source present).1 (beq_iff_eq.mp deleting)

end LatexRenderer
