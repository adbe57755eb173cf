import LatexRenderer.Model.Database

/-! # Cached source trees, their readers and their files

A job that misses the cache reserves a tree, makes its directory, renames its validated input into it and
publishes it; later jobs over the same source pin the tree and read it. Rows and pins are in the database,
the directories are not: every statement and every file operation is a step of its own, and between two
steps of one process any other may step. A process that is killed takes no further step.
-/

namespace LatexRenderer

open Machine

/-- One attempt at a job: the worker that claimed it under this lease generation. The attempt names its
renderer container. -/
structure JobAttempt where
  jobId : String
  generation : Nat
deriving DecidableEq, Repr

/-- A row of `source_tree_readers`; `attempt` stands for `job_id` and `generation`. -/
structure SourceTreeReader where
  treeId : String
  attempt : JobAttempt
deriving DecidableEq, Repr

/-- The row that `prepareSourceInput` reserves. -/
structure TreeReservation where
  id : String
  identity : String
  sourceId : String
  ownerUserId : String
  reservedBytes : Nat
  now : Timestamp
  expiresAt : Timestamp

/-- The new row is `building`. -/
def TreeReservation.row (input : TreeReservation) : SourceTreeRow where
  id := input.id
  identity := input.identity
  sourceId := input.sourceId
  ownerUserId := input.ownerUserId
  status := .building
  reservedBytes := input.reservedBytes
  createdAt := input.now
  expiresAt := input.expiresAt

/-- A directory under `source-trees`, of the owner and with the bytes that its input was measured to take.
`input` tells whether the input is in it. -/
structure TreeDirectory where
  id : String
  ownerUserId : String
  bytes : Nat
  input : Bool := false

/-- How far `prepareSourceInput` and the render after it have come. `hit` is whether the pin at stake is
that of a cache hit. -/
inductive TreePhase where
  | preparing
  | verifying (treeId : String)
  | missed
  | reserved (input : TreeReservation)
  | made (input : TreeReservation)
  | moved (input : TreeReservation)
  | invalidating (treeId : String) (hit : Bool)
  | releasing (treeId : String) (hit : Bool)
  | reading (treeId : String)
  | fallback
  | released

/-- An attempt with its phase. -/
structure TreeAttempt where
  attempt : JobAttempt
  phase : TreePhase := .preparing

/-- A reader in the loop of `recoverSourceTreeReaders`. -/
inductive RecoveryPhase where
  | next
  | stopping (reader : SourceTreeReader)
  | stopped (reader : SourceTreeReader)

/-- A run of `recoverSourceTreeReaders` with the readers it has still to look at. -/
structure ReaderRecovery where
  runId : String
  pending : List SourceTreeReader
  phase : RecoveryPhase := .next

/-- How far a collector has come with the tree it has claimed: it has found a directory, or none is left. -/
inductive CollectorPhase where
  | claimed | found | gone
deriving DecidableEq, Repr

/-- One round of the loop of `collectSourceTrees`. -/
structure TreeCollector where
  runId : String
  treeId : String
  phase : CollectorPhase := .claimed

/-- The arguments of `collectSourceTrees` and the time of its statement. -/
structure CollectInput where
  pressure : Bool
  maximumBytes : Nat
  maximumUserBytes : Nat
  now : Timestamp

/-- The tables, the directories, the running renderer containers and the processes. `stoppedContainers`
are those that `dockerStopVerified` has proved stopped, `issued` the ids that `newId` has given. -/
structure TreeSystem where
  db : Database := {}
  readers : List SourceTreeReader := []
  directories : List TreeDirectory := []
  containers : List JobAttempt := []
  stoppedContainers : List JobAttempt := []
  attempts : List TreeAttempt := []
  recoveries : List ReaderRecovery := []
  collectors : List TreeCollector := []
  issued : List String := []

/-- The transactions on cached trees. -/
def DatabaseAction.onTrees : DatabaseAction → Bool
  | .reserveTree .. | .publishTree _ | .invalidateTree _ | .collectTree _ | .deleteTree _ => true
  | _ => false

namespace TreeSystem

/-- A transaction on the other tables. -/
def transact (limits : Limits) (action : DatabaseAction) (system : TreeSystem) : Option TreeSystem :=
  if action.onTrees then none
  else (action.run limits system.db).map fun db => { system with db := db }

/-- A worker has claimed a job and begins; each lease generation is claimed once. -/
def startAttempt (attempt : JobAttempt) (system : TreeSystem) : Option TreeSystem :=
  if system.attempts.any (·.attempt == attempt) then none
  else some { system with attempts := system.attempts ++ [{ attempt := attempt }] }

/-- An attempt goes on to its next phase. -/
def advance (attempt : JobAttempt) (next : TreePhase → Option TreePhase) (system : TreeSystem) :
    Option TreeSystem :=
  (update? (·.attempt == attempt)
    (fun worker => (next worker.phase).map fun phase => { worker with phase := phase })
    system.attempts).map fun attempts => { system with attempts := attempts }

/-- The phase of an attempt. -/
def phase? (attempt : JobAttempt) (system : TreeSystem) : Option TreePhase :=
  (system.attempts.find? (·.attempt == attempt)).map (·.phase)

/-- The row that `acquire` selects. -/
def acquirable (attempt : JobAttempt) (identity ownerUserId : String) (now : Timestamp)
    (system : TreeSystem) : Option SourceTreeRow :=
  (system.db.trees.find? fun row => row.identity == identity && row.ownerUserId == ownerUserId &&
    row.status == .ready && decide (row.expiresAt > now)).filter
      fun row => system.db.ownsTree row attempt.jobId attempt.generation

/-- `acquire`: a hit pins the tree. -/
def acquire (attempt : JobAttempt) (identity ownerUserId : String) (now : Timestamp)
    (system : TreeSystem) : Option TreeSystem :=
  match system.acquirable attempt identity ownerUserId now with
  | some row =>
    advance attempt (fun | .preparing => some (.verifying row.id) | _ => none)
      { system with readers := system.readers.insert ⟨row.id, attempt⟩ }
  | none => system.advance attempt fun | .preparing => some .missed | _ => none

/-- The files of the hit have been verified. -/
def verify (attempt : JobAttempt) (system : TreeSystem) : Option TreeSystem :=
  system.advance attempt fun | .verifying treeId => some (.reading treeId) | _ => none

/-- The hit is over the budget, or its files are not what its manifest says. -/
def reject (attempt : JobAttempt) (system : TreeSystem) : Option TreeSystem :=
  system.advance attempt fun | .verifying treeId => some (.invalidating treeId true) | _ => none

/-- `reserve`: the new row with the pin of its creator. -/
def reserve (limits : Limits) (attempt : JobAttempt) (input : TreeReservation) (system : TreeSystem) :
    Option TreeSystem := do
  guard (input.id ∉ system.issued)
  let db ← system.db.reserveTree limits input.row attempt.jobId attempt.generation
  advance attempt (fun | .missed => some (.reserved input) | _ => none) { system with
    db := db
    readers := system.readers ++ [⟨input.id, attempt⟩]
    issued := system.issued ++ [input.id] }

/-- The attempt goes on with its own input: it may not use the cache, or has found no room in it. -/
def fallBack (attempt : JobAttempt) (system : TreeSystem) : Option TreeSystem :=
  system.advance attempt fun | .preparing | .missed => some .fallback | _ => none

/-- `mkdir(root)`, which fails on a directory that exists. -/
def makeDirectory (attempt : JobAttempt) (system : TreeSystem) : Option TreeSystem :=
  match system.phase? attempt with
  | some (.reserved input) =>
    if system.directories.any (·.id == input.id) then none
    else advance attempt (fun _ => some (.made input)) { system with
      directories := system.directories ++
        [{ id := input.id, ownerUserId := input.ownerUserId, bytes := input.reservedBytes }] }
  | _ => none

/-- Both renames, of the input into the directory of a tree and back, which fail without the directory. -/
def renameInput (treeId : String) (moved : Bool) (system : TreeSystem) : Option TreeSystem :=
  (update? (·.id == treeId) (fun directory => some { directory with input := moved })
    system.directories).map fun directories => { system with directories := directories }

/-- `rename(destination, input)`. -/
def moveInput (attempt : JobAttempt) (system : TreeSystem) : Option TreeSystem :=
  match system.phase? attempt with
  | some (.made input) => do
    let renamed ← system.renameInput input.id true
    renamed.advance attempt fun _ => some (.moved input)
  | _ => none

/-- `publish`, whose statement may find no row that is still `building`. -/
def publish (attempt : JobAttempt) (system : TreeSystem) : Option TreeSystem :=
  match system.phase? attempt with
  | some (.moved input) =>
    advance attempt (fun _ => some (.reading input.id)) { system with
      db := (system.db.setTreeStatus input.id [.building] .ready).getD system.db }
  | _ => none

/-- An operation of the promotion has thrown and the input is not, or could not be, renamed back. -/
def failPromotion (attempt : JobAttempt) (system : TreeSystem) : Option TreeSystem :=
  system.advance attempt fun
    | .reserved input | .made input | .moved input => some (.invalidating input.id false)
    | _ => none

/-- `rename(input, destination)` after a failed publication. -/
def restoreInput (attempt : JobAttempt) (system : TreeSystem) : Option TreeSystem :=
  match system.phase? attempt with
  | some (.moved input) => do
    let renamed ← system.renameInput input.id false
    renamed.advance attempt fun _ => some (.invalidating input.id false)
  | _ => none

/-- `invalidate`, which leaves a `deleting` row as it is. -/
def invalidate (attempt : JobAttempt) (system : TreeSystem) : Option TreeSystem :=
  match system.phase? attempt with
  | some (.invalidating treeId hit) =>
    advance attempt (fun _ => some (.releasing treeId hit)) { system with
      db := (system.db.setTreeStatus treeId [.building, .ready, .invalid] .invalid).getD system.db }
  | _ => none

/-- `DELETE FROM source_tree_readers`. -/
def dropPin (reader : SourceTreeReader) (system : TreeSystem) : TreeSystem :=
  { system with readers := system.readers.filter (· != reader) }

/-- `release`, by the holder: after a failure, or at the end of the render, whose container has stopped. -/
def release (attempt : JobAttempt) (system : TreeSystem) : Option TreeSystem :=
  match system.phase? attempt with
  | some (.releasing treeId hit) =>
    (system.dropPin ⟨treeId, attempt⟩).advance attempt fun _ => some (if hit then .missed else .fallback)
  | some (.reading treeId) =>
    if attempt ∈ system.containers then none
    else (system.dropPin ⟨treeId, attempt⟩).advance attempt fun _ => some .released
  | _ => none

/-- The renderer container of the attempt starts. -/
def startContainer (attempt : JobAttempt) (system : TreeSystem) : Option TreeSystem :=
  match system.phase? attempt with
  | some (.reading _) | some .fallback =>
    some { system with containers := system.containers.insert attempt }
  | _ => none

/-- A renderer container ends. -/
def endContainer (attempt : JobAttempt) (system : TreeSystem) : Option TreeSystem :=
  some { system with containers := system.containers.filter (· != attempt) }

/-- `readers`: the rows a recovery looks at, 128 at most. -/
def listReaders (runId : String) (pending : List SourceTreeReader) (system : TreeSystem) :
    Option TreeSystem :=
  if system.recoveries.any (·.runId == runId) = false ∧ pending.length ≤ 128 ∧
      ∀ reader ∈ pending, reader ∈ system.readers then
    some { system with recoveries := system.recoveries ++ [{ runId := runId, pending := pending }] }
  else none

/-- A statement of one recovery. -/
def updateRecovery (runId : String) (change : ReaderRecovery → Option ReaderRecovery)
    (system : TreeSystem) : Option TreeSystem :=
  (update? (·.runId == runId) change system.recoveries).map fun recoveries =>
    { system with recoveries := recoveries }

/-- Nobody holds the lease of the job, or the job has no row. -/
def leaseFree (jobId : String) (system : TreeSystem) : Bool :=
  (system.db.jobs.find? (·.job.row.id == jobId)).all (·.job.row.leaseOwner.isNone)

/-- The next reader: only one whose job is not leased is looked at further. -/
def checkReader (runId : String) (system : TreeSystem) : Option TreeSystem :=
  system.updateRecovery runId fun run =>
    match run.phase, run.pending with
    | .next, reader :: pending =>
      some { run with
        pending := pending
        phase := if system.leaseFree reader.attempt.jobId then .stopping reader else .next }
    | _, _ => none

/-- The recovery whose reader is being stopped. -/
def stoppingReader (runId : String) (system : TreeSystem) : Option SourceTreeReader := do
  let run ← system.recoveries.find? (·.runId == runId)
  match run.phase with
  | .stopping reader => some reader
  | _ => none

/-- `dockerStopVerified` of the reader's container returns: the container is gone. -/
def stopVerified (runId : String) (system : TreeSystem) : Option TreeSystem := do
  let reader ← system.stoppingReader runId
  updateRecovery runId (fun run => some { run with phase := .stopped reader }) { system with
    containers := system.containers.filter (· != reader.attempt)
    stoppedContainers := system.stoppedContainers ++ [reader.attempt] }

/-- `dockerStopVerified` throws: the reader is left for a later recovery. -/
def deferReader (runId : String) (system : TreeSystem) : Option TreeSystem := do
  let _ ← system.stoppingReader runId
  system.updateRecovery runId fun run => some { run with phase := .next }

/-- `release`, by the recovery. -/
def dropReader (runId : String) (system : TreeSystem) : Option TreeSystem := do
  let run ← system.recoveries.find? (·.runId == runId)
  match run.phase with
  | .stopped reader =>
    (system.dropPin reader).updateRecovery runId fun run => some { run with phase := .next }
  | _ => none

/-- A recovery ends, or its process dies. -/
def endRecovery (runId : String) (system : TreeSystem) : Option TreeSystem :=
  some { system with recoveries := system.recoveries.filter (·.runId != runId) }

/-- The condition under which the collector selects a row. -/
def collectible (input : CollectInput) (row : SourceTreeRow) (system : TreeSystem) : Bool :=
  !system.readers.any (·.treeId == row.id) &&
    (input.pressure || decide (total (·.reservedBytes) system.db.trees > input.maximumBytes) ||
      decide (total (·.reservedBytes) (system.db.trees.filter (·.ownerUserId == row.ownerUserId)) >
        input.maximumUserBytes) ||
      decide (row.status ∈ [.building, .invalid, .deleting]) || decide (row.expiresAt ≤ input.now) ||
      !system.db.sources.any fun source => source.id == row.sourceId && source.status == .ready &&
        source.ownerUserId == row.ownerUserId)

/-- The transaction of the collector: it selects any row that meets the condition. -/
def collect (runId treeId : String) (input : CollectInput) (system : TreeSystem) : Option TreeSystem := do
  guard (system.collectors.all (·.runId != runId))
  let row ← system.db.trees.find? (·.id == treeId)
  guard (system.collectible input row)
  let db ← system.db.setTreeStatus treeId [.building, .ready, .invalid, .deleting] .deleting
  return { system with
    db := db
    collectors := system.collectors ++ [{ runId := runId, treeId := treeId }] }

/-- A step of one collector. -/
def updateCollector (runId : String) (change : TreeCollector → Option TreeCollector)
    (system : TreeSystem) : Option TreeSystem :=
  (update? (·.runId == runId) change system.collectors).map fun collectors =>
    { system with collectors := collectors }

/-- `lstat(target)`. -/
def inspect (runId : String) (system : TreeSystem) : Option TreeSystem :=
  system.updateCollector runId fun collector =>
    if collector.phase = .claimed then
      some { collector with
        phase := if system.directories.any (·.id == collector.treeId) then .found else .gone }
    else none

/-- `rm(target)` has removed the directory with all that was in it. -/
def removeDirectory (runId : String) (system : TreeSystem) : Option TreeSystem := do
  let collector ← system.collectors.find? (·.runId == runId)
  guard (collector.phase = .found)
  updateCollector runId (fun collector => some { collector with phase := .gone }) { system with
    directories := system.directories.filter (·.id != collector.treeId) }

/-- The last statement of the round: the row is deleted if it is `deleting` and has no reader. -/
def deleteTree (runId : String) (system : TreeSystem) : Option TreeSystem := do
  let collector ← system.collectors.find? (·.runId == runId)
  guard (collector.phase = .gone)
  return { system with
    db := if system.readers.any (·.treeId == collector.treeId) then system.db
      else system.db.deleteTree collector.treeId
    collectors := system.collectors.filter (·.runId != runId) }

/-- A check of the collector throws, a removal fails, or its process dies. -/
def endCollector (runId : String) (system : TreeSystem) : Option TreeSystem :=
  some { system with collectors := system.collectors.filter (·.runId != runId) }

end TreeSystem

/-- One step of any of the processes. -/
inductive TreeAction where
  | transact (action : DatabaseAction)
  | startAttempt (attempt : JobAttempt)
  | acquire (attempt : JobAttempt) (identity ownerUserId : String) (now : Timestamp)
  | verify (attempt : JobAttempt)
  | reject (attempt : JobAttempt)
  | reserve (attempt : JobAttempt) (input : TreeReservation)
  | fallBack (attempt : JobAttempt)
  | makeDirectory (attempt : JobAttempt)
  | moveInput (attempt : JobAttempt)
  | publish (attempt : JobAttempt)
  | failPromotion (attempt : JobAttempt)
  | restoreInput (attempt : JobAttempt)
  | invalidate (attempt : JobAttempt)
  | release (attempt : JobAttempt)
  | startContainer (attempt : JobAttempt)
  | endContainer (attempt : JobAttempt)
  | listReaders (runId : String) (pending : List SourceTreeReader)
  | checkReader (runId : String)
  | stopVerified (runId : String)
  | deferReader (runId : String)
  | dropReader (runId : String)
  | endRecovery (runId : String)
  | collect (runId treeId : String) (input : CollectInput)
  | inspect (runId : String)
  | removeDirectory (runId : String)
  | deleteTree (runId : String)
  | endCollector (runId : String)

/-- The effect of a step; `none` is one that throws or is not possible. -/
def TreeAction.run (limits : Limits) (system : TreeSystem) : TreeAction → Option TreeSystem
  | .transact action => system.transact limits action
  | .startAttempt attempt => system.startAttempt attempt
  | .acquire attempt identity ownerUserId now => system.acquire attempt identity ownerUserId now
  | .verify attempt => system.verify attempt
  | .reject attempt => system.reject attempt
  | .reserve attempt input => system.reserve limits attempt input
  | .fallBack attempt => system.fallBack attempt
  | .makeDirectory attempt => system.makeDirectory attempt
  | .moveInput attempt => system.moveInput attempt
  | .publish attempt => system.publish attempt
  | .failPromotion attempt => system.failPromotion attempt
  | .restoreInput attempt => system.restoreInput attempt
  | .invalidate attempt => system.invalidate attempt
  | .release attempt => system.release attempt
  | .startContainer attempt => system.startContainer attempt
  | .endContainer attempt => system.endContainer attempt
  | .listReaders runId pending => system.listReaders runId pending
  | .checkReader runId => system.checkReader runId
  | .stopVerified runId => system.stopVerified runId
  | .deferReader runId => system.deferReader runId
  | .dropReader runId => system.dropReader runId
  | .endRecovery runId => system.endRecovery runId
  | .collect runId treeId input => system.collect runId treeId input
  | .inspect runId => system.inspect runId
  | .removeDirectory runId => system.removeDirectory runId
  | .deleteTree runId => system.deleteTree runId
  | .endCollector runId => system.endCollector runId

/-- The system from empty tables and an empty cache directory on. -/
def treeMachine (limits : Limits) : LabeledMachine TreeSystem TreeAction :=
  ofPartial (fun system => system.db.jobs = [] ∧ system.db.sources = [] ∧ system.db.trees = [] ∧
    system.readers = [] ∧ system.directories = [] ∧ system.containers = [] ∧
    system.stoppedContainers = [] ∧ system.attempts = [] ∧ system.recoveries = [] ∧
    system.collectors = [] ∧ system.issued = []) (TreeAction.run limits)

end LatexRenderer
