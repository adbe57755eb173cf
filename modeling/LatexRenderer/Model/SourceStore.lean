import LatexRenderer.Model.Projects

/-! # The sources with everything that refers to them

Transactions on jobs, sources and projects, and the workers that open the files of a source. No reference
count is stored: each statement that guards on one counts anew, which `counting` says by putting the
counts of the current tables into the transaction. A worker reads its job once, when it claims it, and
opens the files of the source some time later; between the two any transaction may commit.
-/

namespace LatexRenderer

open Machine

/-- What `claimNext` returned to a worker: the job, its source and the fence of the claim. -/
structure WorkerClaim where
  jobId : String
  sourceId : Option String
  fence : Fence
deriving DecidableEq

/-- A worker has opened the files of its source; `source` is the row at that moment. -/
structure SourceOpening where
  claim : WorkerClaim
  source : Option SourceRow

/-- The tables, the claims that worker processes were given, and the openings so far. -/
structure SourceStore extends ProjectTables where
  claims : List WorkerClaim := []
  openings : List SourceOpening := []

/-- The references that a statement on a source counts, if it looks at them before it deletes. -/
def SourceAction.references? : SourceAction → Option Nat
  | .markDeleting references _ | .claimDeletion references _ | .finishDeletion references _ =>
    some references
  | _ => none

/-- A statement on a source with the count its subquery finds. -/
def SourceAction.counting (references : Nat) : SourceAction → SourceAction
  | .markDeleting _ now => .markDeleting references now
  | .endRetention _ now => .endRetention references now
  | .claimDeletion _ now => .claimDeletion references now
  | .finishDeletion _ now => .finishDeletion references now
  | action => action

namespace SourceStore

/-- The count of `readySourceSql` for the source with this id. -/
def ownerReferences (sourceId : String) (store : SourceStore) : Nat :=
  ((store.db.sources.find? (·.id == sourceId)).map store.toProjectTables.ownerReferenceCount).getD 0

/-- The source of the job with this id. -/
def sourceOfJob (jobId : String) (store : SourceStore) : Option String :=
  (store.db.jobs.find? (·.job.row.id == jobId)).bind (·.job.row.sourceId)

/-- A transaction with the counts that its subqueries find. -/
def counting (store : SourceStore) : DatabaseAction → DatabaseAction
  | .createRenderFromSource texts input =>
    .createRenderFromSource texts
      { input with ownerReferences := store.ownerReferences input.sourceId }
  | .retryRender texts input =>
    .retryRender texts
      { input with ownerReferences := (input.previous.sourceId.map store.ownerReferences).getD 0 }
  | .retrySvg input =>
    .retrySvg
      { input with ownerReferences := ((store.sourceOfJob input.jobId).map store.ownerReferences).getD 0 }
  | .source sourceId action => .source sourceId (action.counting (store.sourceReferenceCount sourceId))
  | action => action

/-- The claims after a transaction: `claimNext` returns the job under its new generation. -/
def claimsAfter (store : SourceStore) : DatabaseAction → List WorkerClaim
  | .job jobId (.claimNext workerId ..) =>
    match store.db.jobs.find? (·.job.row.id == jobId) with
    | some record =>
      ⟨jobId, record.job.row.sourceId, ⟨workerId, record.job.row.leaseGeneration + 1⟩⟩ :: store.claims
    | none => store.claims
  | _ => store.claims

/-- A committed transaction. `newId` never gives an id twice, so a new job is none that a worker knows. -/
def transact (limits : Limits) (action : DatabaseAction) (store : SourceStore) : Option SourceStore :=
  if action.newJobId?.any fun id => store.claims.any (·.jobId == id) then none
  else ((store.counting action).run limits store.db).map fun db =>
    { store with db := db, claims := store.claimsAfter action }

/-- `prepareSourceInput` opens the archive at the path its claim came with, whatever the row of the source
has become since. -/
def openSource (claim : WorkerClaim) (store : SourceStore) : Option SourceStore :=
  if claim ∈ store.claims then
    some { store with
      openings :=
        ⟨claim, claim.sourceId.bind fun id => store.db.sources.find? (·.id == id)⟩ :: store.openings }
  else none

end SourceStore

/-- One step of any of the programs. -/
inductive SourceStoreAction where
  | transact (action : DatabaseAction)
  | createProject (id ownerUserId displayName : String) (timestamp : Timestamp)
  | renameProject (id ownerUserId displayName : String) (timestamp : Timestamp)
  | deleteProject (id ownerUserId : String) (timestamp : Timestamp)
  | attachRevision (input : AttachRevisionInput)
  | openSource (claim : WorkerClaim)

/-- The effect of a step; `none` is one that throws or changes nothing. -/
def SourceStoreAction.run (limits : Limits) (store : SourceStore) :
    SourceStoreAction → Option SourceStore
  | .transact action => store.transact limits action
  | .createProject id ownerUserId displayName timestamp =>
    if store.projects.any (·.id == id) then none
    else ((store.create id ownerUserId displayName timestamp).toOption).map fun tables =>
      { store with toProjectTables := tables }
  | .renameProject id ownerUserId displayName timestamp =>
    ((store.rename id ownerUserId displayName timestamp).toOption).map fun tables =>
      { store with toProjectTables := tables }
  | .deleteProject id ownerUserId timestamp =>
    ((store.delete id ownerUserId timestamp).toOption).map fun tables =>
      { store with toProjectTables := tables }
  | .attachRevision input =>
    if store.revisions.any (·.id == input.revisionId) then none
    else ((store.attachRevision input).toOption).map fun tables =>
      { store with toProjectTables := tables }
  | .openSource claim => store.openSource claim

/-- The store from empty tables on, under any sequence of steps. -/
def sourceStoreMachine (limits : Limits) : LabeledMachine SourceStore SourceStoreAction :=
  ofPartial (fun store => store.db.jobs = [] ∧ store.db.sources = [] ∧ store.db.trees = [] ∧
    store.projects = [] ∧ store.revisions = [] ∧ store.claims = [] ∧ store.openings = [])
    (SourceStoreAction.run limits)

end LatexRenderer
