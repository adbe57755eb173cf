import LatexRenderer.Model.Jobs.OutputStages

/-! # The worker's transactions: `processJob`, `processStagedJob`, `recordFailure`

Each definition is one transaction, or one statement outside any, of a worker that carries the fence
of its claim. `none` is a transaction that changes nothing: the code returned early, found no row to
change, or threw and was rolled back.
-/

namespace LatexRenderer

/-- What the renderer container left behind; `stderr` is its first 500 characters. -/
structure Execution where
  exitCode : Nat
  timedOut : Bool
  stderr : String

inductive ResultStatus where
  | succeeded | failed | timeout
deriving DecidableEq, Repr

def ResultStatus.terminal : ResultStatus → TerminalStatus
  | .succeeded => .succeeded
  | .failed => .failed
  | .timeout => .timeout

def ResultStatus.stage : ResultStatus → StageStatus
  | .succeeded => .succeeded
  | .failed => .failed
  | .timeout => .timeout

structure RenderResult where
  status : ResultStatus
  errorCode : Option String
  errorMessage : Option String

/-- `stageTimeouts`: the exit codes that name the stage which ran out of time. -/
def stageTimeout? : Nat → Option (String × String)
  | 81 => some ("LATEX_COMPILE_TIMEOUT", "The LaTeX compile stage timed out")
  | 82 => some ("PREVIEW_TIMEOUT", "The PDF preview stage timed out")
  | 83 => some ("SVG_TIMEOUT", "The SVG stage timed out")
  | _ => none

def classifyRenderResult (run : Execution) : RenderResult :=
  if run.timedOut then
    ⟨.timeout, some "JOB_TIMEOUT", some "The renderer exceeded the overall job timeout"⟩
  else if run.exitCode = 0 then ⟨.succeeded, none, none⟩
  else if run.exitCode = 84 then
    ⟨.failed, some "RENDERER_MEMORY_LIMIT", some "The renderer exceeded its container memory limit"⟩
  else match stageTimeout? run.exitCode with
    | some (code, message) => ⟨.timeout, some code, some message⟩
    | none => ⟨.failed, some "LATEX_COMPILE_FAILED",
        some ("Renderer exited with " ++ toString run.exitCode ++ ": " ++ run.stderr)⟩

/-- An error of the code: an `AppError` has a code of its own, any other error has none. -/
structure ProcessError where
  app : Option (String × String)

/-- The SVG stage's result and exit code: the container's, renamed, or that of an error caught while
the stage ran. -/
def svgResult : Except ProcessError Execution → RenderResult × Nat
  | .ok run =>
    let result := classifyRenderResult run
    if result.errorCode = some "LATEX_COMPILE_FAILED" then
      ({ result with
        errorCode := some "SVG_GENERATION_FAILED"
        errorMessage := some ("SVG stage exited with " ++ toString run.exitCode) }, run.exitCode)
    else if result.errorCode = some "RENDERER_MEMORY_LIMIT" then
      ({ result with
        errorCode := some "SVG_MEMORY_LIMIT"
        errorMessage := some "The SVG stage exceeded its container memory limit" }, run.exitCode)
    else (result, run.exitCode)
  | .error error =>
    let (code, message) := error.app.getD ("SVG_GENERATION_FAILED", "SVG generation failed")
    ({ classifyRenderResult ⟨79, false, ""⟩ with
      errorCode := some code
      errorMessage := some message }, 79)

/-- A `ValidatedArtifact`, with the id `newId` draws for its row. -/
structure ValidatedArtifact where
  id : String
  type : ArtifactType
  path : String
  size : Nat
  sha256 : Sha256

/-- `artifacts.reduce((n, a) => n + a.size, 0)`. -/
def totalSize (artifacts : List ValidatedArtifact) : Nat :=
  (artifacts.map (·.size)).sum

/-- What `validateArtifacts` lets through: files at distinct paths of one tree, within the limit. -/
def validateArtifacts (maxOutputBytes : Nat) (artifacts : List ValidatedArtifact) :
    Option (List ValidatedArtifact) :=
  if totalSize artifacts ≤ maxOutputBytes ∧ (artifacts.map (·.path)).Nodup then some artifacts else none

def ValidatedArtifact.row (artifact : ValidatedArtifact) (storageGeneration : Nat)
    (createdAt : Timestamp) : ArtifactRow where
  id := artifact.id
  type := artifact.type
  relativePath := artifact.path
  storageGeneration := some storageGeneration
  size := artifact.size
  sha256 := artifact.sha256
  createdAt := createdAt

/-- `relative_path.startsWith("svg/")`. -/
def isSvgPath (path : String) : Bool :=
  "svg/".toList.isPrefixOf path.toList

/-- `storageGeneration`: the PDF and the SVG stage of one claim publish under different numbers. -/
def storageGeneration? (lease : Nat) (svg : Bool) : Option Nat :=
  let value := lease * 2 + (if svg then 1 else 0)
  if value = 0 then none else some value

/-- The digest and the size of the SyncTeX file that the PDF checkpoint keeps. -/
structure SynctexDigest where
  sha256 : Sha256
  bytes : Nat

namespace Job

/-- `ArtifactsRepository.insert`: the primary key and the unique path must be free. -/
def insertArtifact (artifact : ArtifactRow) (job : Job) : Option Job :=
  if job.artifacts.any fun row => row.id == artifact.id || row.relativePath == artifact.relativePath
  then none
  else some { job with artifacts := job.artifacts ++ [artifact] }

/-- `ArtifactsRepository.publishStage`: an SVG path replaces the pointer of an earlier attempt and
keeps its id. -/
def publishStage (artifact : ArtifactRow) (job : Job) : Option Job :=
  if isSvgPath artifact.relativePath ∧
      job.artifacts.any (fun row => row.relativePath == artifact.relativePath) then
    some { job with
      artifacts := job.artifacts.map fun row =>
        if row.relativePath = artifact.relativePath then { artifact with id := row.id } else row }
  else job.insertArtifact artifact

/-- The artifact loop of `processJob` and `recordFailure`. -/
def insertArtifacts (rows : List ArtifactRow) (job : Job) : Option Job :=
  rows.foldlM (fun job row => job.insertArtifact row) job

/-- `insertArtifacts` of `processStagedJob`. -/
def publishArtifacts (rows : List ArtifactRow) (job : Job) : Option Job :=
  rows.foldlM (fun job row => job.publishStage row) job

def hasPublishedPdf (job : Job) : Bool :=
  job.artifacts.any fun row => row.relativePath == "result.pdf" && row.type == .pdf

/-- `processStagedJob`, before any work: a published PDF without its checkpoint is an error, else the
stage row is initialized. -/
def prepareStages (fence : Fence) (rendererImage : String) (job : Job) : Option Job := do
  guard ¬(job.stages.isNone ∧ job.hasPublishedPdf)
  job.initializeStages fence rendererImage

/-- `processJob`, first transaction: the job of an inactive subject is rejected. -/
def rejectInactive (fence : Fence) (now : Timestamp) (job : Job) : Option Job :=
  job.updateStatus (·.transitionOwned fence [.validating] .rejected now {
    renderStatus := some .rejected
    completedAt := some now
    errorCode := some (some "ACCOUNT_INACTIVE")
    errorMessage := some (some "Job owner, service account, or API key is inactive")
    releaseLease := true })

/-- Both processors: the validated job starts to run. -/
def startRunning (fence : Fence) (now : Timestamp) (job : Job) : Option Job :=
  job.updateStatus (·.transitionOwned fence [.validating] .running now { startedAt := some now })

/-- `markCanceled` by a worker that saw the cancel request, or by a recovery run. -/
def markCanceled (fence : Fence) (now : Timestamp) (job : Job) : Option Job :=
  job.updateStatus (·.markCanceled fence now none)

/-- The `transitionOwned` that ends a render: the running job takes the status of its result and the
lease is released. The PDF failure leaves `heartbeat_at` as it is. -/
def endRender (fence : Fence) (result : RenderResult) (exitCode total : Nat)
    (heartbeatAt : Option Timestamp) (now : Timestamp) (job : Job) : Option Job :=
  job.updateStatus (·.transitionOwned fence [.running] result.status.terminal.toJob now {
    renderStatus := some result.status.terminal
    completedAt := some now
    outputSize := some total
    exitCode := some exitCode
    errorCode := some result.errorCode
    errorMessage := some result.errorMessage
    releaseLease := true
    heartbeatAt := heartbeatAt })

/-- `processJob`, finalization: the job is not staged, so its outputs hold no SVG. -/
def finalize (maxOutputBytes : Nat) (fence : Fence) (run : Execution)
    (artifacts : List ValidatedArtifact) (now : Timestamp) (job : Job) : Option Job := do
  guard (.svg ∉ job.row.outputs)
  let artifacts ← validateArtifacts maxOutputBytes artifacts
  guard (job.row.ownedBy fence)
  if job.row.cancelRequestedAt.isSome ∨ job.row.status = .canceled then
    job.updateStatus (·.markCanceled fence now (some (totalSize artifacts)))
  else
    let result := classifyRenderResult run
    let inserted ← job.insertArtifacts (artifacts.map (·.row fence.generation now))
    inserted.endRender fence result run.exitCode (totalSize artifacts) (some now) now

/-- `processStagedJob`, PDF failure: diagnostics are published and the job ends, unless the lease is
gone or the job is being canceled. -/
def commitPdfFailure (maxOutputBytes : Nat) (fence : Fence) (run : Execution)
    (artifacts : List ValidatedArtifact) (now : Timestamp) (job : Job) : Option Job := do
  let result := classifyRenderResult run
  guard (result.status ≠ .succeeded)
  let artifacts ← validateArtifacts maxOutputBytes artifacts
  let generation ← storageGeneration? fence.generation false
  guard (job.row.ownedBy fence)
  if job.row.cancelRequestedAt.isSome then job.markCanceled fence now
  else
    let inserted ← job.publishArtifacts (artifacts.map (·.row generation now))
    inserted.endRender fence result run.exitCode (totalSize artifacts) none now

/-- `processStagedJob`, PDF success: the checkpoint and its artifacts are published and the job keeps
running. -/
def commitPdf (maxOutputBytes : Nat) (fence : Fence) (pdfSha256 : Sha256) (synctex : SynctexDigest)
    (artifacts : List ValidatedArtifact) (now : Timestamp) (job : Job) : Option Job := do
  let artifacts ← validateArtifacts maxOutputBytes artifacts
  let total := totalSize artifacts + synctex.bytes
  guard (total ≤ maxOutputBytes)
  guard (artifacts.all fun artifact => !isSvgPath artifact.path)
  guard (artifacts.any fun artifact => artifact.path == "previews/page-1.png")
  guard (artifacts.any fun artifact => artifact.path == "result.pdf" && artifact.sha256 == pdfSha256)
  let generation ← storageGeneration? fence.generation false
  let completed ← job.updateStage (fun row stage => stage.completePdf fence {
    storageGeneration := generation
    sha256 := pdfSha256
    synctexSha256 := synctex.sha256
    synctexBytes := synctex.bytes
    completedAt := now } row)
  let inserted ← completed.publishArtifacts (artifacts.map (·.row generation now))
  inserted.updateStatus (·.transitionOwned fence [.running] .running now { outputSize := some total })

/-- `processStagedJob`, the end of the SVG stage; `previousBytes` is the output size the worker read
before the transaction. -/
def commitSvg (maxOutputBytes : Nat) (fence : Fence) (run : Except ProcessError Execution)
    (artifacts : List ValidatedArtifact) (previousBytes : Nat) (now : Timestamp) (job : Job) :
    Option Job := do
  let (result, exitCode) := svgResult run
  let artifacts ← validateArtifacts maxOutputBytes artifacts
  guard (artifacts.all fun artifact => isSvgPath artifact.path)
  let total := previousBytes + totalSize artifacts
  guard (total ≤ maxOutputBytes)
  let generation ← storageGeneration? fence.generation true
  let completed ← job.updateStage (fun row stage => stage.completeSvg fence {
    storageGeneration := generation
    status := result.status.stage
    errorCode := result.errorCode
    errorMessage := result.errorMessage
    completedAt := now } row)
  let inserted ← completed.publishArtifacts (artifacts.map (·.row generation now))
  inserted.endRender fence result exitCode total (some now) now

/-- `recordFailure` once a PDF is published: nothing is published over it, and a cancel request wins. -/
def recordPublishedFailure (fence : Fence) (status : FailureStatus) (errorCode message : String)
    (now : Timestamp) (job : Job) : Option Job :=
  if job.row.cancelRequestedAt.isSome then job.markCanceled fence now
  else
    job.updateStatus (fun row =>
      row.finishFailure fence status errorCode message now (row.outputSize.getD 0))

/-- `recordFailure` otherwise: the job ends and its diagnostics are published with it. -/
def recordUnpublishedFailure (maxOutputBytes : Nat) (fence : Fence) (status : FailureStatus)
    (errorCode message : String) (artifacts : List ValidatedArtifact) (now : Timestamp) (job : Job) :
    Option Job := do
  let artifacts ← validateArtifacts maxOutputBytes artifacts
  let finished ← job.updateStatus
    (·.finishFailure fence status errorCode message now (totalSize artifacts))
  finished.insertArtifacts (artifacts.map (·.row fence.generation now))

end Job

end LatexRenderer
