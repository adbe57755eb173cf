import LatexRenderer.Machine.Run
import LatexRenderer.Model.Jobs.OutputStages
import LatexRenderer.Model.Jobs.Processor
import LatexRenderer.Model.Jobs.Effects

/-! # One job under every program that touches it

The renderer API, the admin API, any number of workers and recovery runs and the cleanup script act on
a job through atomic statements and transactions. A `JobAction` is one of these with the values its
caller supplies; nothing is assumed about when a caller makes it, so a run of `jobMachine` is any
interleaving of any number of callers, each of which may be paused, restarted or fenced out.
-/

namespace LatexRenderer

open Machine

/-- What a worker or a recovery run does with a job it has claimed. -/
inductive WorkerOperation where
  | heartbeat (now leaseExpiresAt : Timestamp)
  | rejectInactive (now : Timestamp)
  | startRunning (now : Timestamp)
  | prepareStages (rendererImage : String)
  | startPdf
  | startSvg
  | markCanceled (now : Timestamp)
  | finalize (run : Execution) (artifacts : List ValidatedArtifact) (now : Timestamp)
  | commitPdfFailure (run : Execution) (artifacts : List ValidatedArtifact) (now : Timestamp)
  | commitPdf (pdfSha256 : Sha256) (synctex : SynctexDigest) (artifacts : List ValidatedArtifact)
      (now : Timestamp)
  | commitSvg (run : Except ProcessError Execution) (artifacts : List ValidatedArtifact)
      (previousBytes : Nat) (now : Timestamp)
  | recordPublishedFailure (status : FailureStatus) (errorCode message : String) (now : Timestamp)
  | recordUnpublishedFailure (status : FailureStatus) (errorCode message : String)
      (artifacts : List ValidatedArtifact) (now : Timestamp)
  | expireRecoveryClaim (now : Timestamp)
  | recoverFailed (now : Timestamp)
  | recoverQueued (now : Timestamp)

/-- One atomic step on a job. -/
inductive JobAction where
  | uploadStarted (now : Timestamp)
  | uploadFinished (now : Timestamp)
  | uploadFailed (now : Timestamp)
  | expireReservation (now cutoff : Timestamp) (claimActive : Bool)
  | cancel (now : Timestamp)
  | markDeleting (now : Timestamp)
  | requeueSvg (input : RequeueInput)
  | attachProjectRevision (revisionId : String)
  | blockAdmission (message : String) (now : Timestamp)
  | clearAdmission (now : Timestamp)
  | claimNext (workerId : String) (now leaseExpiresAt : Timestamp) (queuedBefore : Option Timestamp)
      (previewRunning : Bool)
  | claimExpiredLease (job : StaleLeaseRow) (workerId : String) (now leaseExpiresAt : Timestamp)
  | worker (fence : Fence) (operation : WorkerOperation)
  | claimDeletion (view : CleanupView)
  | finishDeletion (now : Timestamp)
  | failDeletion (now : Timestamp) (error : String)

/-- The effect of a worker's operation; `none` changes nothing. -/
def WorkerOperation.run (maxOutputBytes : Nat) (fence : Fence) (job : Job) :
    WorkerOperation → Option Job
  | .heartbeat now leaseExpiresAt => job.updateColumns (·.heartbeat fence now leaseExpiresAt)
  | .rejectInactive now => job.rejectInactive fence now
  | .startRunning now => job.startRunning fence now
  | .prepareStages rendererImage => job.prepareStages fence rendererImage
  | .startPdf => job.updateStage fun row stage => stage.startPdf fence row
  | .startSvg => job.updateStage fun row stage => stage.startSvg fence row
  | .markCanceled now => job.markCanceled fence now
  | .finalize run artifacts now => job.finalize maxOutputBytes fence run artifacts now
  | .commitPdfFailure run artifacts now => job.commitPdfFailure maxOutputBytes fence run artifacts now
  | .commitPdf pdfSha256 synctex artifacts now =>
    job.commitPdf maxOutputBytes fence pdfSha256 synctex artifacts now
  | .commitSvg run artifacts previousBytes now =>
    job.commitSvg maxOutputBytes fence run artifacts previousBytes now
  | .recordPublishedFailure status errorCode message now =>
    job.recordPublishedFailure fence status errorCode message now
  | .recordUnpublishedFailure status errorCode message artifacts now =>
    job.recordUnpublishedFailure maxOutputBytes fence status errorCode message artifacts now
  | .expireRecoveryClaim now => job.updateColumns (·.expireRecoveryClaim fence now)
  | .recoverFailed now => job.updateStatus (·.recoverFailed fence now)
  | .recoverQueued now => job.updateStatus (·.recoverQueued fence now)

/-- The effect of an action; `none` changes nothing. -/
def JobAction.run (maxOutputBytes : Nat) (job : Job) : JobAction → Option Job
  | .uploadStarted now => job.updateStatus (·.transitionJob [.reserved] .uploading none now)
  | .uploadFinished now => job.updateStatus (·.transitionJob [.uploading] .queued (some now) now)
  | .uploadFailed now => job.updateStatus (·.restoreReservedAfterUploadFailure now)
  | .expireReservation now cutoff claimActive =>
    job.updateStatus (·.expireReservation now cutoff claimActive)
  | .cancel now => job.updateStatus (·.cancel now)
  | .markDeleting now => job.updateStatus (·.markDeleting now)
  | .requeueSvg input => job.requeueSvg input
  | .attachProjectRevision revisionId => job.updateColumns (·.attachProjectRevision revisionId)
  | .blockAdmission message now => job.updateColumns (·.blockAdmission message now)
  | .clearAdmission now => job.updateColumns (·.clearAdmission now)
  | .claimNext workerId now leaseExpiresAt queuedBefore previewRunning =>
    job.updateStatus (·.claimNext workerId now leaseExpiresAt queuedBefore previewRunning)
  | .claimExpiredLease stale workerId now leaseExpiresAt =>
    job.updateColumns (·.claimExpiredLease stale (recoveryOwner workerId (stale.leaseGeneration + 1)) now
      leaseExpiresAt)
  | .worker fence operation => operation.run maxOutputBytes fence job
  | .claimDeletion view => job.claimDeletion view
  | .finishDeletion now => job.finishDeletion now
  | .failDeletion now error => job.failDeletion now error

/-- A job as one of the three inserting statements creates it. -/
inductive Job.Inserted : Job → Prop
  | reserved (input : ReservedInput) : Inserted { row := insertReserved input }
  | queued (input : QueuedInput) (source : SourceRow) (ownerReferences : Nat) (row : JobRow) :
      insertQueued? input source ownerReferences = some row → Inserted { row := row }
  | retry (input : RetryInput) : Inserted { row := insertRetry input }

/-- The life of one job: it is inserted, and from then on any caller may take any step. -/
def jobMachine (maxOutputBytes : Nat) : LabeledMachine Job JobAction :=
  ofPartial Job.Inserted (JobAction.run maxOutputBytes)

/-- The reservation a direct upload ticket makes; the examples of the development start from it. -/
def exampleTicket : ReservedInput where
  id := "job_1"
  userId := "user_1"
  serviceAccountId := "sa_1"
  apiKeyId := "key_1"
  rendererVersion := "1"
  sourceSize := 1
  sourceSha256 := 0
  timestamp := 0
  reservedOutputBytes := 10

/-- A ticket for a staged job over a source of its own. -/
def exampleStagedTicket : ReservedInput :=
  { exampleTicket with sourceId := some "source_1", outputs := [.pdf, .svg] }

def exampleSource : SourceRow where
  id := "source_1"
  ownerUserId := "user_1"
  size := 1
  sha256 := 0
  status := .ready
  createdAt := 0
  updatedAt := 0
  expiresAt := 1000

/-- The staged job publishes its PDF and fails in the SVG stage. -/
def svgFailed : List JobAction :=
  let fence : Fence := ⟨"worker_1", 1⟩
  [.uploadStarted 1, .uploadFinished 2, .claimNext "worker_1" 3 33 none false,
    .worker fence (.prepareStages "image_1"), .worker fence (.startRunning 4), .worker fence .startPdf,
    .worker fence (.commitPdf 7 ⟨8, 1⟩
      [⟨"artifact_1", .pdf, "result.pdf", 1, 7⟩, ⟨"artifact_2", .preview, "previews/page-1.png", 1, 9⟩] 5),
    .worker fence .startSvg,
    .worker fence (.commitSvg (.error ⟨none⟩) [⟨"artifact_3", .log, "svg/compile.log", 1, 9⟩] 3 6)]

/-- Replaying actions whose end passes a check gives a run of the job machine. -/
theorem jobMachine_run (maxOutputBytes : Nat) (job : Job) (actions : List JobAction)
    (check : Job → Bool)
    (passes : (replay? (JobAction.run maxOutputBytes) job actions).any check = true) :
    ∃ next, Run (jobMachine maxOutputBytes) job actions next ∧ check next = true :=
  exists_run_of_replay? passes

end LatexRenderer

/-! ## Artifact rows are published together

A loop of inserts either stores every row or fails as a whole; a later row of the same loop does not
replace an earlier one, since the paths are distinct.
-/

namespace LatexRenderer

/-- The artifact is published, under its own id or under the id of the row it replaced. -/
def Job.Stored (artifact : ArtifactRow) (job : Job) : Prop :=
  ∃ id, { artifact with id := id } ∈ job.artifacts

variable {job next : Job} {artifact : ArtifactRow}

theorem Job.insertArtifact_artifacts (inserted : job.insertArtifact artifact = some next) :
    next.artifacts = job.artifacts ++ [artifact] := by
  unfold insertArtifact at inserted
  split at inserted
  · cases inserted
  · cases inserted
    rfl

theorem Job.insertArtifact_stored (inserted : job.insertArtifact artifact = some next) :
    next.Stored artifact :=
  ⟨artifact.id, by simp [insertArtifact_artifacts inserted]⟩

theorem Job.insertArtifact_keeps (inserted : job.insertArtifact artifact = some next)
    {other : ArtifactRow} (stored : job.Stored other) : next.Stored other := by
  obtain ⟨id, member⟩ := stored
  exact ⟨id, by simp [insertArtifact_artifacts inserted, member]⟩

theorem Job.publishStage_stored (published : job.publishStage artifact = some next) :
    next.Stored artifact := by
  unfold publishStage at published
  split at published
  next replaces =>
    obtain ⟨row, member, same⟩ := List.any_eq_true.mp replaces.2
    cases published
    refine ⟨row.id, List.mem_map.mpr ⟨row, member, ?_⟩⟩
    rw [if_pos (beq_iff_eq.mp same)]
  next => exact insertArtifact_stored published

/-- Publishing at one path leaves the artifact at any other path as it is. -/
theorem Job.publishStage_keeps (published : job.publishStage artifact = some next)
    {other : ArtifactRow} (apart : other.relativePath ≠ artifact.relativePath)
    (stored : job.Stored other) : next.Stored other := by
  unfold publishStage at published
  split at published
  · obtain ⟨id, member⟩ := stored
    cases published
    refine ⟨id, List.mem_map.mpr ⟨_, member, ?_⟩⟩
    rw [if_neg apart]
  · exact insertArtifact_keeps published stored

/-- A loop of inserts that stores each row, and keeps what is stored at other paths, stores all rows
of distinct paths. -/
private theorem foldlM_stored {insert : Job → ArtifactRow → Option Job}
    (stores : ∀ {a b : Job} {row}, insert a row = some b → b.Stored row)
    (keeps : ∀ {a b : Job} {row other : ArtifactRow}, insert a row = some b →
      other.relativePath ≠ row.relativePath → a.Stored other → b.Stored other)
    {rows : List ArtifactRow} (inserted : rows.foldlM insert job = some next)
    (distinct : (rows.map (·.relativePath)).Nodup) : ∀ row ∈ rows, next.Stored row := by
  have keepsAll : ∀ {rows : List ArtifactRow} {job : Job} {other : ArtifactRow},
      rows.foldlM insert job = some next → other.relativePath ∉ rows.map (·.relativePath) →
      job.Stored other → next.Stored other := by
    intro rows
    induction rows with
    | nil =>
      intro job other inserted _ stored
      cases inserted
      exact stored
    | cons row rest ih =>
      intro job other inserted apart stored
      obtain ⟨mid, first, others⟩ := Option.bind_eq_some_iff.mp inserted
      rw [List.map_cons, List.mem_cons, not_or] at apart
      exact ih others apart.2 (keeps first apart.1 stored)
  induction rows generalizing job with
  | nil => simp
  | cons row rest ih =>
    obtain ⟨mid, first, others⟩ := Option.bind_eq_some_iff.mp inserted
    rw [List.map_cons, List.nodup_cons] at distinct
    intro target member
    rcases List.mem_cons.mp member with rfl | later
    · exact keepsAll others distinct.1 (stores first)
    · exact ih others distinct.2 target later

theorem Job.insertArtifacts_stored {rows : List ArtifactRow}
    (inserted : job.insertArtifacts rows = some next)
    (distinct : (rows.map (·.relativePath)).Nodup) : ∀ row ∈ rows, next.Stored row :=
  foldlM_stored insertArtifact_stored (fun first _ stored => insertArtifact_keeps first stored)
    inserted distinct

theorem Job.publishArtifacts_stored {rows : List ArtifactRow}
    (published : job.publishArtifacts rows = some next)
    (distinct : (rows.map (·.relativePath)).Nodup) : ∀ row ∈ rows, next.Stored row :=
  foldlM_stored publishStage_stored (fun first apart stored => publishStage_keeps first apart stored)
    published distinct

/-- The rows of validated artifacts have the artifacts' paths. -/
theorem rows_distinct {artifacts : List ValidatedArtifact} (generation : Nat) (now : Timestamp)
    (distinct : (artifacts.map (·.path)).Nodup) :
    ((artifacts.map (·.row generation now)).map (·.relativePath)).Nodup := by
  rw [List.map_map]
  exact distinct

/-- The artifact rows an operation carries. -/
def WorkerOperation.artifactRows (fence : Fence) : WorkerOperation → List ArtifactRow
  | .finalize _ artifacts now => artifacts.map (·.row fence.generation now)
  | .commitPdfFailure _ artifacts now => artifacts.map (·.row (fence.generation * 2) now)
  | .commitPdf _ _ artifacts now => artifacts.map (·.row (fence.generation * 2) now)
  | .commitSvg _ artifacts _ now => artifacts.map (·.row (fence.generation * 2 + 1) now)
  | .recordUnpublishedFailure _ _ _ artifacts now => artifacts.map (·.row fence.generation now)
  | _ => []

theorem storageGeneration?_eq_some {lease generation : Nat} {svg : Bool}
    (numbered : storageGeneration? lease svg = some generation) :
    generation = lease * 2 + (if svg then 1 else 0) ∧ 0 < generation := by
  simp only [storageGeneration?, Option.ite_none_left_eq_some, Option.some.injEq] at numbered
  omega

end LatexRenderer
