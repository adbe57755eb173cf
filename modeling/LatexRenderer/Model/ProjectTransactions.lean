import LatexRenderer.Machine.Transactions
import LatexRenderer.Model.SourceStore

/-! # The transactions of saved projects, statement by statement

`ProjectOperations` and its callers work inside transactions. The statements of each stand here in their order; the
database may fail any of them.
-/

namespace LatexRenderer

open Machine

/-- The statements. -/
inductive ProjectStatement where
  | maintenanceMode | getOwned | getOwnedReady | revisionForSource | selectNumber | insertRevision | audit | touch
  | insert | update | other
deriving DecidableEq, Repr

/-- The error of the database itself. -/
instance : Fault AppError := ⟨⟨"DATABASE_ERROR", "Database error", 500⟩⟩

/-- A transaction over the store. -/
abbrev ProjectProcess (α : Type) := Process ProjectStatement SourceStore Unit AppError α

def assertProjectsWritable : ProjectProcess Unit :=
  Process.ask .maintenanceMode fun _ store => store.assertWritable

/-- A query that has to find a row. -/
def selectRow {β : Type} (statement : ProjectStatement) (error : AppError) (query : SourceStore → Option β) :
    ProjectProcess β :=
  Process.ask statement fun _ store => (query store).elim (.error error) .ok

/-- The row that `insertRevision` inserts under a number. -/
def AttachRevisionInput.row (input : AttachRevisionInput) (revisionNumber : Nat) : ProjectRevisionRow where
  id := input.revisionId
  projectId := input.projectId
  sourceId := input.sourceId
  revisionNumber := revisionNumber
  displayName := input.displayName
  originalFilename := input.originalFilename
  entrypoint := input.entrypoint
  outputs := input.outputs
  createdAt := input.timestamp

/-- Whether the unique columns of `project_revisions` hold the values of a row already. -/
def ProjectRevisionRow.clashes (row other : ProjectRevisionRow) : Bool :=
  other.id == row.id ||
    other.projectId == row.projectId && (other.revisionNumber == row.revisionNumber ||
      other.sourceId == row.sourceId && other.entrypoint == row.entrypoint)

/-- `ProjectsRepository.insertRevision`: the number is selected by a statement of its own. -/
def insertRevisionRow (input : AttachRevisionInput) : ProjectProcess ProjectRevisionRow := do
  let revisionNumber ← Process.ask .selectNumber fun _ store => .ok (store.nextRevisionNumber input.projectId)
  Process.act .insertRevision fun _ store =>
    let row := input.row revisionNumber
    if store.revisions.any row.clashes then .error Fault.fault
    else .ok (row, { store with revisions := store.revisions ++ [row] })

/-- The insertion of a revision with its audit row. -/
def insertAudited (input : AttachRevisionInput) : ProjectProcess ProjectRevisionRow := do
  let revision ← insertRevisionRow input
  Process.modify .audit fun store => store
  pure revision

def attachRevisionInTransaction (input : AttachRevisionInput) : ProjectProcess ProjectRevisionRow := do
  assertProjectsWritable
  Process.require (ProjectTables.validOutputs input.outputs) ⟨"INVALID_OUTPUTS", "Render outputs are invalid", 400⟩
  let project ← selectRow .getOwned ProjectTables.projectNotFound (·.getOwned input.projectId input.userId)
  let source ← selectRow .getOwnedReady ⟨"SOURCE_NOT_READY", "Source does not exist or is not ready", 409⟩
    (·.getOwnedReady input.sourceId input.userId input.timestamp)
  Process.require (input.entrypoint ∈ source.paths)
    ⟨"ENTRYPOINT_MISSING", "Source does not contain the requested entrypoint", 422⟩
  let existing ← Process.ask .revisionForSource fun _ store =>
    .ok (store.revisionForSource input.projectId input.sourceId input.entrypoint)
  let revision ← existing.elim (insertAudited input) pure
  Process.modify .touch fun store => { store with toProjectTables := store.touch project.id input.timestamp }
  pure revision

def createProject (id ownerUserId displayName : String) (timestamp : Timestamp) : ProjectProcess Unit := do
  assertProjectsWritable
  Process.act .insert fun _ store =>
    if store.projects.any (·.id == id) then .error Fault.fault
    else .ok ((), { store with projects := store.projects ++ [{
      id := id
      ownerUserId := ownerUserId
      displayName := displayName
      createdAt := timestamp
      updatedAt := timestamp }] })
  Process.modify .audit fun store => store

/-- `rename` and `delete`: the update of one row, which has to be there. -/
def updateProject (projectId : String) (change : ProjectRow → Option ProjectRow) : ProjectProcess Unit := do
  assertProjectsWritable
  Process.act .update fun _ store =>
    match update? (·.id == projectId) change store.projects with
    | none => .error ProjectTables.projectNotFound
    | some projects => .ok ((), { store with projects := projects })
  Process.modify .audit fun store => store

/-- The transactions of all programs. A render of a project and a revised source attach their revision in the transaction
that inserts the job or finishes the source, before or after its other statements. -/
inductive ProjectCall where
  | create (id ownerUserId displayName : String) (timestamp : Timestamp)
  | rename (id ownerUserId displayName : String) (timestamp : Timestamp)
  | delete (id ownerUserId : String) (timestamp : Timestamp)
  | attachRevision (input : AttachRevisionInput) (before after : List DatabaseAction)
  | transact (action : DatabaseAction)

/-- The statements of another transaction on jobs and sources. -/
def transactStatement (limits : Limits) (action : DatabaseAction) : ProjectProcess Unit :=
  Process.act .other fun _ store =>
    match store.transact limits action with
    | none => .error Fault.fault
    | some next => .ok ((), next)

/-- The attached revision is returned to the caller. -/
def ProjectCall.program (limits : Limits) : ProjectCall → ProjectProcess (Option ProjectRevisionRow)
  | .create id ownerUserId displayName timestamp => do
    createProject id ownerUserId displayName timestamp
    pure none
  | .rename id ownerUserId displayName timestamp => do
    updateProject id (·.rename ownerUserId displayName timestamp)
    pure none
  | .delete id ownerUserId timestamp => do
    updateProject id (·.softDelete ownerUserId timestamp)
    pure none
  | .attachRevision input before after => do
    Process.each before (transactStatement limits)
    let revision ← attachRevisionInTransaction input
    Process.each after (transactStatement limits)
    pure (some revision)
  | .transact action => do
    transactStatement limits action
    pure none

/-- The store from empty tables on, under any interleaving of the statements of these transactions. -/
def projectMachine (limits : Limits) :
    LabeledMachine (Serial ProjectCall ProjectStatement SourceStore Unit AppError (Option ProjectRevisionRow))
      (SerialEvent ProjectCall Unit) :=
  serialMachine (sourceStoreMachine limits).Init (ProjectCall.program limits)

end LatexRenderer
