import LatexRenderer.Model.Database

/-! # `ProjectsRepository` and `ProjectOperations`

Saved projects and their revisions, each of which names the source it renders. A project is only ever
deleted softly: its revisions stay, and stop counting as references to their sources.
-/

namespace LatexRenderer

/-- A row of `projects`. -/
structure ProjectRow where
  id : String
  ownerUserId : String
  displayName : String
  createdAt : Timestamp
  updatedAt : Timestamp
  deletedAt : Option Timestamp := none

/-- A row of `project_revisions`. -/
structure ProjectRevisionRow where
  id : String
  projectId : String
  sourceId : String
  revisionNumber : Nat
  displayName : String
  originalFilename : String
  entrypoint : String
  outputs : List RenderOutput
  createdAt : Timestamp

/-- The database with the saved projects. -/
structure ProjectTables where
  db : Database := {}
  projects : List ProjectRow := []
  revisions : List ProjectRevisionRow := []

namespace ProjectRow

/-- The guard of `rename` and `softDelete`, and the query of `getOwned`. -/
def owned (ownerUserId : String) (row : ProjectRow) : Prop :=
  row.ownerUserId = ownerUserId ∧ row.deletedAt = none

instance (ownerUserId : String) (row : ProjectRow) : Decidable (row.owned ownerUserId) := by
  unfold owned
  infer_instance

def rename (ownerUserId displayName : String) (timestamp : Timestamp) (row : ProjectRow) :
    Option ProjectRow :=
  if row.owned ownerUserId then some { row with displayName := displayName, updatedAt := timestamp }
  else none

def softDelete (ownerUserId : String) (timestamp : Timestamp) (row : ProjectRow) : Option ProjectRow :=
  if row.owned ownerUserId then some { row with deletedAt := some timestamp, updatedAt := timestamp }
  else none

def touch (timestamp : Timestamp) (row : ProjectRow) : ProjectRow :=
  { row with updatedAt := timestamp }

end ProjectRow

/-- Input of `attachRevisionInTransaction`; `revisionId` is what `newId` gives. -/
structure AttachRevisionInput where
  revisionId : String
  userId : String
  projectId : String
  sourceId : String
  entrypoint : String
  displayName : String
  originalFilename : String
  outputs : List RenderOutput
  timestamp : Timestamp

namespace ProjectTables

open Machine

/-- The first summand of `sourceReferenceCountSql`: the jobs over a source that are not yet gone.
`owner` is the scope of the count, if it has one. -/
def jobReferences (sourceId : String) (owner : Option String) (tables : ProjectTables) : Nat :=
  tables.db.jobs.countP fun record =>
    record.job.row.sourceId == some sourceId &&
      decide (record.job.row.status ∉ [.deleted, .expired]) && owner.all (· == record.job.row.userId)

/-- The project that a revision belongs to, unless it was deleted. -/
def liveProject (revision : ProjectRevisionRow) (tables : ProjectTables) : Option ProjectRow :=
  tables.projects.find? fun project => project.id == revision.projectId && project.deletedAt.isNone

/-- The second summand: the revisions of undeleted projects over a source. -/
def revisionReferences (sourceId : String) (owner : Option String) (tables : ProjectTables) : Nat :=
  tables.revisions.countP fun revision =>
    revision.sourceId == sourceId &&
      (tables.liveProject revision).any fun project => owner.all (· == project.ownerUserId)

/-- `sourceReferenceCountSql(alias)`. -/
def sourceReferenceCount (sourceId : String) (tables : ProjectTables) : Nat :=
  tables.jobReferences sourceId none + tables.revisionReferences sourceId none

/-- `sourceReferenceCountSql(alias, true)`: only the owner of the source counts. -/
def ownerReferenceCount (source : SourceRow) (tables : ProjectTables) : Nat :=
  tables.jobReferences source.id (some source.ownerUserId) +
    tables.revisionReferences source.id (some source.ownerUserId)

def getOwned (projectId ownerUserId : String) (tables : ProjectTables) : Option ProjectRow :=
  tables.projects.find? fun project => project.id == projectId && decide (project.owned ownerUserId)

def getOwnedReady (sourceId ownerUserId : String) (timestamp : Timestamp) (tables : ProjectTables) :
    Option SourceRow :=
  tables.db.sources.find? fun source =>
    source.id == sourceId && source.ownerUserId == ownerUserId &&
      decide (source.isReady (tables.ownerReferenceCount source) timestamp)

def revisionForSource (projectId sourceId entrypoint : String) (tables : ProjectTables) :
    Option ProjectRevisionRow :=
  tables.revisions.find? fun revision =>
    revision.projectId == projectId && revision.sourceId == sourceId && revision.entrypoint == entrypoint

/-- `COALESCE(MAX(revision_number),0)+1`. -/
def nextRevisionNumber (projectId : String) (tables : ProjectTables) : Nat :=
  ((tables.revisions.filter (·.projectId == projectId)).map (·.revisionNumber)).foldr max 0 + 1

def insertRevision (input : AttachRevisionInput) (tables : ProjectTables) : ProjectTables :=
  { tables with
    revisions := tables.revisions ++ [{
      id := input.revisionId
      projectId := input.projectId
      sourceId := input.sourceId
      revisionNumber := tables.nextRevisionNumber input.projectId
      displayName := input.displayName
      originalFilename := input.originalFilename
      entrypoint := input.entrypoint
      outputs := input.outputs
      createdAt := input.timestamp }] }

/-- `touch`, on the row with this id. -/
def touch (projectId : String) (timestamp : Timestamp) (tables : ProjectTables) : ProjectTables :=
  { tables with
    projects := tables.projects.map fun row => if row.id = projectId then row.touch timestamp else row }

def assertWritable (tables : ProjectTables) : Except AppError Unit :=
  if tables.db.maintenanceMode = .readOnly ∨ tables.db.maintenanceMode = .lockdown then
    throw ⟨"MAINTENANCE", "Saved Projects cannot be changed during maintenance", 503⟩
  else return ()

def create (id ownerUserId displayName : String) (timestamp : Timestamp) (tables : ProjectTables) :
    Except AppError ProjectTables := do
  tables.assertWritable
  return { tables with
    projects := tables.projects ++ [{
      id := id
      ownerUserId := ownerUserId
      displayName := displayName
      createdAt := timestamp
      updatedAt := timestamp }] }

/-- The answer of `rename` and `delete` to a project that they do not find. -/
def projectNotFound : AppError := ⟨"PROJECT_NOT_FOUND", "Project does not exist", 404⟩

/-- The `UPDATE` of one project that `rename` and `delete` make, one changed row or an error. -/
def changeProject (projectId : String) (change : ProjectRow → Option ProjectRow)
    (tables : ProjectTables) : Except AppError ProjectTables := do
  tables.assertWritable
  match update? (·.id == projectId) change tables.projects with
  | none => throw projectNotFound
  | some projects => return { tables with projects := projects }

def rename (projectId ownerUserId displayName : String) (timestamp : Timestamp)
    (tables : ProjectTables) : Except AppError ProjectTables :=
  tables.changeProject projectId (·.rename ownerUserId displayName timestamp)

def delete (projectId ownerUserId : String) (timestamp : Timestamp) (tables : ProjectTables) :
    Except AppError ProjectTables :=
  tables.changeProject projectId (·.softDelete ownerUserId timestamp)

/-- A render asks for a PDF, and for each output once. -/
def validOutputs (outputs : List RenderOutput) : Bool :=
  decide (1 ≤ outputs.length ∧ outputs.length ≤ 2 ∧ .pdf ∈ outputs ∧ outputs.Nodup)

/-- `attachRevisionInTransaction`: the revision of this project over this source and entrypoint, inserted
unless it is there. -/
def attachRevision (input : AttachRevisionInput) (tables : ProjectTables) :
    Except AppError ProjectTables := do
  tables.assertWritable
  if !validOutputs input.outputs then
    throw ⟨"INVALID_OUTPUTS", "Render outputs are invalid", 400⟩
  match tables.getOwned input.projectId input.userId with
  | none => throw projectNotFound
  | some project =>
    match tables.getOwnedReady input.sourceId input.userId input.timestamp with
    | none => throw ⟨"SOURCE_NOT_READY", "Source does not exist or is not ready", 409⟩
    | some source =>
      if input.entrypoint ∉ source.paths then
        throw ⟨"ENTRYPOINT_MISSING", "Source does not contain the requested entrypoint", 422⟩
      match tables.revisionForSource input.projectId input.sourceId input.entrypoint with
      | some _ => return tables.touch project.id input.timestamp
      | none => return (tables.insertRevision input).touch project.id input.timestamp

end ProjectTables

end LatexRenderer
