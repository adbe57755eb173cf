import LatexRenderer.Machine.Critical

/-! # The image manager

`renderer.env` names the image of the renderer, two inventory files list what is in it, and `state.json`
records it as the current one. An activation changes all of them one after another under a journal; its
handler restores them. When the manager starts it finishes an activation whose journal it finds, in the
direction that `renderer.env` shows, and records the operation that it found running.
-/

namespace LatexRenderer

open Machine

/-- The whitespace of JavaScript that a line of `renderer.env` may hold. -/
def envSpace (c : Char) : Bool := c == ' ' || c == '\t' || c == '\r' || c == '\x0b' || c == '\x0c' || c == '\u00a0'

def trimEnv (text : List Char) : List Char :=
  ((text.dropWhile envSpace).reverse.dropWhile envSpace).reverse

/-- An image id, as docker prints it. -/
structure ImageId where
  value : List Char
  nonempty : value ≠ []
  trimmed : trimEnv value = value
deriving DecidableEq

/-- The lines of `renderer.env`. -/
abbrev RendererEnv : Type := List (List Char)

def imageKey : List Char := ['R', 'E', 'N', 'D', 'E', 'R', 'E', 'R', '_', 'I', 'M', 'A', 'G', 'E', '=']

/-- A match of `/^RENDERER_IMAGE=(.+)$/` in a line. -/
def imageLine (line : List Char) : Option (List Char) :=
  match imageKey.isPrefixOf line, line.drop imageKey.length with
  | true, c :: rest => some (c :: rest)
  | _, _ => none

def rendererImageFromEnv (contents : RendererEnv) : List Char :=
  ((contents.findSome? imageLine).map trimEnv).getD []

/-- `contents.replace(/\s*$/, "")`. -/
def stripEnv (contents : RendererEnv) : RendererEnv :=
  match contents.reverse.dropWhile fun line => line.all envSpace with
  | [] => [[]]
  | last :: before => before.reverse ++ [(last.reverse.dropWhile envSpace).reverse]

/-- `contents.replace(/^RENDERER_IMAGE=.*$/m, line)`. -/
def replaceImageLine (line : List Char) : RendererEnv → RendererEnv
  | [] => []
  | first :: rest => if imageKey.isPrefixOf first then line :: rest else first :: replaceImageLine line rest

def rendererEnvWithImage (contents : RendererEnv) (image : ImageId) : RendererEnv :=
  if contents.any imageKey.isPrefixOf then replaceImageLine (imageKey ++ image.value) contents
  else stripEnv contents ++ [imageKey ++ image.value, []]

/-- A runtime in the state. -/
structure RuntimeRecord where
  runtimeImageId : ImageId
  legacy : Bool
deriving DecidableEq

structure RuntimeState where
  current : RuntimeRecord
  previous : Option RuntimeRecord
  lastOperationId : Option Nat
deriving DecidableEq

/-- The inventory of an image. -/
structure ImageInventory where
  packages : String
  fonts : String
deriving DecidableEq, Repr

structure ActivationJournal where
  operationId : Nat
  oldEnv : RendererEnv
  newImageId : ImageId
  previousState : RuntimeState
  nextState : RuntimeState
deriving DecidableEq

/-- The status of an operation. -/
inductive OperationStatus where
  | running
  | succeeded
  | failed
deriving DecidableEq, Repr

/-- The files, and the state that the manager holds. `incomplete` tells that in this process a restoration was
incomplete; `begun` and `committed` name the operations whose activation has begun and is committed. -/
structure ImageHost where
  env : RendererEnv
  packages : Option String
  fonts : Option String
  state : RuntimeState
  journal : Option ActivationJournal
  operation : Nat → Option OperationStatus
  memory : RuntimeState
  incomplete : Bool
  begun : Nat → Bool
  committed : Nat → Bool

/-- Where an inventory is written. -/
inductive InventoryWriter where
  | recovery
  | activation
  | revalidation
  | restoration
deriving DecidableEq, Repr

/-- The steps. -/
inductive ImageSite where
  | loadState
  | readJournal
  | readEnv
  | inspect
  | collect
  | writePackages (writer : InventoryWriter)
  | writeFonts (writer : InventoryWriter)
  | persistRecovered
  | removeRecovered (committed : Bool)
  | findOperation (committed : Bool)
  | loadOperation (committed : Bool)
  | saveRecovered (committed : Bool)
  | persistOutcome
  | request
  | lock
  | look
  | saveStart
  | persistStart
  | undo
  | removeMeta
  | persistUndo
  | prepare
  | readInventory
  | writeJournal
  | writeEnv
  | restart
  | persistNext
  | removeCommitted
  | restoreEnv
  | restoreRestart
  | persistPrevious (restored : Bool)
  | removeRestored
  | persistTask
  | saveSucceeded
  | saveFailed
  | persistFinished
deriving DecidableEq, Repr

/-- What the host answers: the random id of an operation, the runtime that was acquired, and whether the
desired runtime is the current one already. -/
structure ImageAnswer where
  operationId : Nat
  runtime : RuntimeRecord
  unchanged : Bool

/-- What a failed call reports. -/
inductive ImageError where
  | host
  | unexpectedImage
  | noPrevious
deriving DecidableEq, Repr

instance : Fault ImageError := ⟨.host⟩

/-- The texts of the errors, up to the image in them. -/
def ImageError.message : ImageError → String
  | .host => ""
  | .unexpectedImage => "Image activation recovery refused an unexpected RENDERER_IMAGE: "
  | .noPrevious => "No previous known-good runtime is available"

/-- A process of the manager. -/
abbrev ImageProcess (α : Type) : Type := Process ImageSite ImageHost ImageAnswer ImageError α

/-- What the recovery of an activation found. -/
structure ActivationOutcome where
  operationId : Nat
  committed : Bool
deriving DecidableEq, Repr

/-- A call that may fail and changes none of the files. -/
def imageCall (site : ImageSite) : ImageProcess Unit := Process.ask site fun _ _ => .ok ()

/-- A look at the state that the manager holds. -/
def heldState {β : Type} (f : RuntimeState → β) : ImageProcess β := Process.view .look fun host => f host.memory

def ImageHost.record (id : Nat) (status : Option OperationStatus) (host : ImageHost) : ImageHost :=
  { host with operation := fun other => if other = id then status else host.operation other }

def ImageHost.persist (host : ImageHost) : ImageHost := { host with state := host.memory }

/-- The journal goes, with its activation committed. -/
def ImageHost.commit (host : ImageHost) : ImageHost :=
  { host with
    journal := none
    committed := fun id => host.journal.any (fun journal => decide (journal.operationId = id)) || host.committed id }

def writeInventory (writer : InventoryWriter) (packages fonts : Option String) : ImageProcess Unit := do
  Process.modify (.writePackages writer) fun host => { host with packages := packages }
  Process.modify (.writeFonts writer) fun host => { host with fonts := fonts }

/-- `collectInventory` and `writeInventory`, of the image of this name. -/
def renewInventory (inventories : List Char → ImageInventory) (writer : InventoryWriter) (image : List Char) :
    ImageProcess Unit := do
  imageCall .collect
  writeInventory writer (some (inventories image).packages) (some (inventories image).fonts)

/-- The branch of `recoverPendingActivation` where `renderer.env` names the new image. -/
def commitRecovered (inventories : List Char → ImageInventory) (journal : ActivationJournal) :
    ImageProcess ActivationOutcome := do
  imageCall .inspect
  renewInventory inventories .recovery journal.newImageId.value
  Process.modify .persistRecovered fun host => { host with memory := journal.nextState, state := journal.nextState }
  Process.modify (.removeRecovered true) ImageHost.commit
  pure ⟨journal.operationId, true⟩

/-- The branch of `recoverPendingActivation` where `renderer.env` names the old image. -/
def restoreRecovered (inventories : List Char → ImageInventory) (journal : ActivationJournal) :
    ImageProcess ActivationOutcome := do
  Process.modify .persistRecovered fun host =>
    { host with memory := journal.previousState, state := journal.previousState }
  (if rendererImageFromEnv journal.oldEnv = [] then pure ()
  else do
    imageCall .inspect
    renewInventory inventories .recovery (rendererImageFromEnv journal.oldEnv))
  Process.modify (.removeRecovered false) fun host => { host with journal := none }
  pure ⟨journal.operationId, false⟩

def recoverPendingActivation (inventories : List Char → ImageInventory) :
    ImageProcess (Option ActivationOutcome) := do
  match ← Process.ask .readJournal fun _ host => .ok host.journal with
  | none => pure none
  | some journal => do
    let configured ← Process.ask .readEnv fun _ host => .ok (rendererImageFromEnv host.env)
    if configured = journal.newImageId.value then do
      let outcome ← commitRecovered inventories journal
      pure (some outcome)
    else if configured = rendererImageFromEnv journal.oldEnv then do
      let outcome ← restoreRecovered inventories journal
      pure (some outcome)
    else throw .unexpectedImage

/-- Whether the recovered activation was committed. -/
def recoveredCommit (outcome : Option ActivationOutcome) : Bool := outcome.any ActivationOutcome.committed

def recoverInterruptedOperation (outcome : Option ActivationOutcome) : ImageProcess Unit := do
  match ← Process.view (.findOperation (recoveredCommit outcome)) fun host => host.memory.lastOperationId with
  | none => pure ()
  | some id => do
    let saved ← Process.ask (.loadOperation (recoveredCommit outcome)) fun _ host => .ok (host.operation id)
    if saved = some .running then do
      Process.modify (.saveRecovered (recoveredCommit outcome)) (ImageHost.record id (some
        (if outcome.any fun found => found.operationId = id && found.committed then .succeeded else .failed)))
      Process.modify .persistOutcome ImageHost.persist
    else pure ()

/-- The start of the manager. -/
def startImageManager (inventories : List Char → ImageInventory) : ImageProcess Unit := do
  Process.modify .loadState fun host => { host with memory := host.state, incomplete := false }
  let outcome ← recoverPendingActivation inventories
  recoverInterruptedOperation outcome

/-- `restoreActivation`: whether nothing failed. -/
def restoreActivation (oldEnv : RendererEnv) (oldInventory : Option String × Option String) (envChanged : Bool) :
    ImageProcess Bool := do
  let envRestored ← Process.attempt (Process.modify .restoreEnv fun host => { host with env := oldEnv })
  let restarted ←
    (if envChanged && envRestored then Process.attempt (imageCall .restoreRestart) else pure true)
  let inventoryRestored ← Process.attempt (writeInventory .restoration oldInventory.1 oldInventory.2)
  pure (envRestored && restarted && inventoryRestored)

/-- The handler of `activateAndPersistState`, up to the `throw`. -/
def abandonActivation (journal : ActivationJournal) (oldInventory : Option String × Option String)
    (envChanged : Bool) : ImageProcess Unit := do
  Process.mark .look fun host => { host with memory := journal.previousState }
  let restored ← restoreActivation journal.oldEnv oldInventory envChanged
  let _ ← Process.attempt (Process.modify (.persistPrevious restored) fun host =>
    { host with state := journal.previousState })
  if restored then do
    let _ ← Process.attempt (Process.modify .removeRestored fun host => { host with journal := none })
    pure ()
  else Process.mark .look fun host => { host with incomplete := true }

/-- The `try` block of `activateAndPersistState`. -/
def performActivation (inventories : List Char → ImageInventory) (journal : ActivationJournal)
    (newEnv : RendererEnv) : ImageProcess Unit := do
  (if newEnv ≠ journal.oldEnv then do
    Process.modify .writeEnv fun host => { host with env := newEnv }
    imageCall .restart
  else pure ())
  writeInventory .activation (some (inventories journal.newImageId.value).packages)
    (some (inventories journal.newImageId.value).fonts)
  Process.modify .persistNext fun host => { host with memory := journal.nextState, state := journal.nextState }
  Process.modify .removeCommitted ImageHost.commit

/-- `activateAndPersistState`, with the inventory that was collected before. -/
def activateAndPersistState (inventories : List Char → ImageInventory) (id : Nat)
    (previousState nextState : RuntimeState) (image : ImageId) : ImageProcess Unit := do
  imageCall .inspect
  let oldEnv ← Process.ask .readEnv fun _ host => .ok host.env
  let oldInventory ← Process.ask .readInventory fun _ host => .ok (host.packages, host.fonts)
  let newEnv := rendererEnvWithImage oldEnv image
  let journal : ActivationJournal := ⟨id, oldEnv, image, previousState, nextState⟩
  Process.modify .writeJournal fun host => { host with
    journal := some journal
    begun := fun other => decide (other = id) || host.begun other }
  tryCatch (performActivation inventories journal newEnv) fun error => do
    abandonActivation journal oldInventory (decide (newEnv ≠ oldEnv))
    throw error

/-- The operations. -/
inductive ImageTask where
  | apply
  | rollback
  | refresh
  | revalidate
  | cleanup
deriving DecidableEq, Repr

/-- `applyRuntime`, once the runtime was acquired and is valid. -/
def activateApplied (inventories : List Char → ImageInventory) (id : Nat) (runtime : RuntimeRecord) :
    ImageProcess Unit := do
  let previousState ← heldState fun state => state
  activateAndPersistState inventories id previousState
    { previousState with previous := some previousState.current, current := runtime } runtime.runtimeImageId

def rollbackRuntime (inventories : List Char → ImageInventory) (id : Nat) : ImageProcess Unit := do
  let previousState ← heldState fun state => state
  match previousState.previous with
  | none => throw .noPrevious
  | some target => do
    let answer ← Process.ask .prepare fun answer _ => .ok answer
    let nextCurrent := if target.legacy then target else { answer.runtime with legacy := false }
    activateAndPersistState inventories id previousState
      { previousState with current := nextCurrent, previous := some previousState.current }
      nextCurrent.runtimeImageId

/-- The task of an operation. -/
def ImageTask.run (inventories : List Char → ImageInventory) (id : Nat) : ImageTask → ImageProcess Unit
  | .apply => do
    let answer ← Process.ask .prepare fun answer _ => .ok answer
    activateApplied inventories id { answer.runtime with legacy := false }
  | .rollback => rollbackRuntime inventories id
  | .refresh => do
    let answer ← Process.ask .prepare fun answer _ => .ok answer
    if answer.unchanged then pure ()
    else activateApplied inventories id { answer.runtime with legacy := false }
  | .revalidate => do
    imageCall .prepare
    let current ← heldState RuntimeState.current
    renewInventory inventories .revalidation current.runtimeImageId.value
  | .cleanup => do
    imageCall .prepare
    Process.modify .persistTask ImageHost.persist

def finishOperationSucceeded (id : Nat) : ImageProcess Unit := do
  let _ ← Process.attempt (Process.modify .saveSucceeded (ImageHost.record id (some .succeeded)))
  let _ ← Process.attempt (Process.modify .persistFinished ImageHost.persist)
  pure ()

def finishOperationFailed (id : Nat) : ImageProcess Unit := do
  let _ ← Process.attempt (Process.modify .saveFailed (ImageHost.record id (some .failed)))
  let _ ← Process.attempt (Process.modify .persistFinished ImageHost.persist)
  pure ()

/-- The `catch` block of `startOperation`, up to the `throw`. -/
def undoOperation (id : Nat) (previousLastOperationId : Option Nat) : ImageProcess Unit := do
  Process.mark .undo fun host =>
    { host with memory := { host.memory with lastOperationId := previousLastOperationId } }
  let _ ← Process.attempt (Process.modify .removeMeta (ImageHost.record id none))
  let _ ← Process.attempt (Process.modify .persistUndo ImageHost.persist)
  pure ()

/-- `startOperation`, with the operation that it starts. -/
def startOperation (inventories : List Char → ImageInventory) (task : ImageTask) : ImageProcess Unit := do
  let id ← Process.ask .lock fun answer _ => .ok answer.operationId
  let previousLastOperationId ← heldState RuntimeState.lastOperationId
  Process.mark .look fun host => { host with memory := { host.memory with lastOperationId := some id } }
  tryCatch (do
    Process.modify .saveStart (ImageHost.record id (some .running))
    Process.modify .persistStart ImageHost.persist) fun error => do
      undoOperation id previousLastOperationId
      throw error
  match ← Process.outcome (task.run inventories id) with
  | .ok _ => finishOperationSucceeded id
  | .error _ => finishOperationFailed id

/-- A request to the manager: an operation, or a change of the state that leaves the runtimes as they are. -/
inductive ImageRequest where
  | operation (task : ImageTask)
  | country
deriving DecidableEq, Repr

/-- What a request does; its error is the answer to it. -/
def serveImageRequest (inventories : List Char → ImageInventory) (request : ImageRequest) : ImageProcess Unit := do
  Process.mark .request id
  let _ ← Process.attempt (match request with
    | .operation task => startOperation inventories task
    | .country => Process.modify .persistTask ImageHost.persist)
  pure ()

/-- The life of a manager process: it starts and serves requests. -/
def imageManager (inventories : List Char → ImageInventory) (requests : List ImageRequest) :
    ImageProcess Unit := do
  startImageManager inventories
  Process.each requests (serveImageRequest inventories)
  Process.mark .request id

/-- The inventory files are those of the image of this name. -/
def ImageHost.Describes (inventories : List Char → ImageInventory) (host : ImageHost) (image : List Char) :
    Prop :=
  host.packages = some (inventories image).packages ∧ host.fonts = some (inventories image).fonts

/-- The recorded image is that of `renderer.env`, and the inventory is its. -/
structure ImageHost.Consistent (inventories : List Char → ImageInventory) (host : ImageHost) : Prop where
  recorded : rendererImageFromEnv host.env = host.state.current.runtimeImageId.value
  described : host.Describes inventories host.state.current.runtimeImageId.value

/-- The manager, whose processes serve one list of requests after another. -/
def imageService (inventories : List Char → ImageInventory) :
    Service (List ImageRequest) ImageSite ImageHost ImageAnswer ImageError Unit Empty where
  Init host := host.journal = none ∧ host.Consistent inventories ∧
    (∀ id, host.operation id ≠ some .running) ∧ ∀ id, host.begun id = false ∧ host.committed id = false
  program := imageManager inventories
  drift change _ := change.elim

end LatexRenderer
