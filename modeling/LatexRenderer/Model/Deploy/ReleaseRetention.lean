import LatexRenderer.Machine.Durable
import LatexRenderer.Machine.Paths
import LatexRenderer.Machine.Process
import LatexRenderer.Machine.Session

/-! # The retention of releases

The releases lie beside each other in one directory, and a link names the current one. A ledger says which
release was verified when, which one was current before and which directories are being deleted.
`captureReleaseRetention` runs before a deployment moves the link, `collectReleases` after it: it records
what it will delete, and then moves one directory after the other to the trash and removes it. Both run
under the mutation lock. A deployment, failed or not, publishes directories and moves the link in between.
-/

namespace LatexRenderer

open Machine

def maxSafeInteger : Nat := 9007199254740991

/-- A character of `[A-Za-z0-9._-]`. -/
def releaseIdCharacter (c : Char) : Bool := c.isAlphanum || c == '.' || c == '_' || c == '-'

/-- `includes("..")`. -/
def twoDots : List Char → Bool
  | '.' :: '.' :: _ => true
  | _ :: rest => twoDots rest
  | [] => false

/-- `idPattern` and the rest of `validId`. -/
def validReleaseIdChars : List Char → Bool
  | [] => false
  | first :: rest =>
    first.isAlphanum && decide (rest.length ≤ 159) && rest.all releaseIdCharacter &&
      !twoDots (first :: rest)

def validReleaseId (id : String) : Bool := validReleaseIdChars id.toList

/-- A character of `[a-f0-9-]`. -/
def tokenCharacter (c : Char) : Bool := c.isDigit || ('a' ≤ c && c ≤ 'f') || c == '-'

/-- `/^[a-f0-9-]{36}$/`. -/
def validTrashToken (token : List Char) : Bool := token.length == 36 && token.all tokenCharacter

/-- What `randomUUID` returns. -/
structure TrashToken where
  text : String
  valid : validTrashToken text.toList = true

instance : Inhabited TrashToken := ⟨⟨"00000000-0000-4000-8000-000000000000", by decide⟩⟩

/-- An entry of `successful`. -/
structure VerifiedRelease where
  id : String
  verifiedAt : Nat
deriving DecidableEq, Repr

/-- An entry of `deleting`. -/
structure DeletingRelease where
  id : String
  trash : String
deriving DecidableEq, Repr

/-- The ledger. -/
structure ReleaseLedger where
  previous : Option String
  successful : List VerifiedRelease
  deleting : List DeletingRelease
deriving DecidableEq, Repr

/-- Where a symbolic link leads, as it is written. -/
structure LinkTarget where
  absolute : Bool
  segments : List String
deriving DecidableEq, Repr

/-- What an entry of a release is. -/
inductive ReleaseEntryKind where
  | file
  | directory
  | link (target : LinkTarget)
  | special
deriving DecidableEq, Repr

/-- An entry below the directory of a release, under its path there: `mounted` means another device,
`owned` the expected owner and `writable` write permission for others. -/
structure ReleaseEntry where
  path : List String
  kind : ReleaseEntryKind
  mounted : Bool := false
  owned : Bool := true
  writable : Bool := false
deriving DecidableEq, Repr

/-- A directory beside the others: whether it passes `sealed`, the id that its metadata gives and its
entries in the order of a walk. -/
structure ReleaseDirectory where
  sealed : Bool := true
  identity : Option String
  entries : List ReleaseEntry
deriving DecidableEq, Repr

/-- The files: the ledger, the temporary file beside it, what lies in the directory of the releases and
the path that the current link leads to. -/
structure RetentionDisk where
  ledger : Option ReleaseLedger
  next : Bool
  releases : String → Option ReleaseDirectory
  current : Option (List String)

/-- What a failed call reports. -/
inductive RetentionError where
  | host
  | invalidIdentity
  | unsafePath
  | missing
  | escapes
  | metadataMismatch
  | corruptLedger
  | corruptAge
  | corruptJournal
  | invalidTrash
  | mountedPath
  | bounds
  | deviceOrOwner
  | externalLink
  | writableDirectory
  | specialEntry
  | notActive
  | becameProtected
  | ambiguous
  | unrecognizedTrash
deriving DecidableEq, Repr

instance : Fault RetentionError := ⟨.host⟩

/-- The texts of the errors. -/
def RetentionError.message : RetentionError → String
  | .host => ""
  | .invalidIdentity => "Invalid retained release identity"
  | .unsafePath => "Unsafe release retention state or path"
  | .missing => "ENOENT"
  | .escapes => "Current release escapes release root"
  | .metadataMismatch => "Release metadata identity mismatch"
  | .corruptLedger => "Corrupt release retention ledger"
  | .corruptAge => "Corrupt verified release age"
  | .corruptJournal => "Corrupt release deletion journal"
  | .invalidTrash => "Invalid release trash identity"
  | .mountedPath => "Mounted release path; cleanup stopped"
  | .bounds => "Release cleanup tree exceeds bounds"
  | .deviceOrOwner => "Unexpected release device or owner"
  | .externalLink => "External release symlink; cleanup stopped"
  | .writableDirectory => "Writable release directory"
  | .specialEntry => "Special release entry; cleanup stopped"
  | .notActive => "Requested verified release is not active"
  | .becameProtected => "A deleting release became protected; review required"
  | .ambiguous => "Ambiguous release deletion state"
  | .unrecognizedTrash => "Unrecognized release trash"

def pendingMark : List Char := ['.', 'p', 'e', 'n', 'd', 'i', 'n', 'g', '-']

def trashMark : List Char := ['.', 't', 'r', 'a', 's', 'h', '-']

/-- A name in the trash. -/
def inTrash (name : String) : Bool := trashMark.isPrefixOf name.toList

/-- The name of a stage of a publication. -/
def isStage (name : String) : Bool := pendingMark.isPrefixOf name.toList

/-- The start of the names in the trash that belong to a release. -/
def trashPrefix (id : String) : List Char := trashMark ++ (id.toList ++ ['-'])

/-- The name in the trash. -/
def trashName (id : String) (token : TrashToken) : String := ".trash-" ++ id ++ "-" ++ token.text

/-- The check of an entry of `deleting`. -/
def DeletingRelease.validTrash (entry : DeletingRelease) : Bool :=
  (trashPrefix entry.id).isPrefixOf entry.trash.toList &&
    validTrashToken (entry.trash.toList.drop (trashPrefix entry.id).length)

/-- The loop of `validateLedger` over `successful`. -/
def validateSuccessful : List VerifiedRelease → Except RetentionError Unit
  | [] => .ok ()
  | entry :: rest =>
    if validReleaseId entry.id = false then .error .invalidIdentity
    else if maxSafeInteger < entry.verifiedAt then .error .corruptAge
    else validateSuccessful rest

/-- The loop of `validateLedger` over `deleting`. -/
def validateDeleting : List DeletingRelease → Except RetentionError Unit
  | [] => .ok ()
  | entry :: rest =>
    if validReleaseId entry.id = false then .error .invalidIdentity
    else if entry.validTrash = false then .error .invalidTrash
    else validateDeleting rest

def validateLedger (value : ReleaseLedger) : Except RetentionError ReleaseLedger := do
  if 3 < value.successful.length ∨ ¬ (value.successful.map VerifiedRelease.id).Nodup then
    throw .corruptLedger
  validateSuccessful value.successful
  if value.previous.any (! validReleaseId ·) then throw .invalidIdentity
  if 100 < value.deleting.length ∨ ¬ (value.deleting.map DeletingRelease.id).Nodup then
    throw .corruptJournal
  validateDeleting value.deleting
  return value

/-- Where a link leads, seen from the directory `path` of its release. -/
def LinkTarget.destination (target : LinkTarget) (path link : List String) : List String :=
  if target.absolute then resolvePath [] target.segments
  else resolvePath (path ++ link.dropLast) target.segments

/-- The check of one entry in `walk`. -/
def ReleaseEntry.check (path : List String) (entry : ReleaseEntry) : Except RetentionError Unit :=
  if entry.mounted ∨ entry.owned = false then .error .deviceOrOwner
  else match entry.kind with
    | .link target =>
      if path <+: target.destination path entry.path then .ok () else .error .externalLink
    | .directory => if entry.writable then .error .writableDirectory else .ok ()
    | .file => .ok ()
    | .special => .error .specialEntry

/-- `walk`, where `count` entries were seen. -/
def walkRelease (path : List String) : Nat → List ReleaseEntry → Except RetentionError Unit
  | _, [] => .ok ()
  | count, entry :: rest =>
    if 200000 < count + 1 ∨ 128 < entry.path.length then .error .bounds
    else do
      entry.check path
      walkRelease path (count + 1) rest

/-- `deletionTree`. The directory itself is the first entry of the walk. -/
def deletionTree (path : List String) (mounts : List (List String)) (directory : ReleaseDirectory) :
    Except RetentionError Unit :=
  if directory.sealed = false then .error .unsafePath
  else if mounts.any (path.isPrefixOf ·) then .error .mountedPath
  else walkRelease path 1 directory.entries

/-- The options of `collectReleases`. -/
structure CollectOptions where
  releaseId : String
  protectedIds : List String
  markVerified : Bool
  now : Fin 9007199254740992
  mountPaths : List (List String)
deriving DecidableEq, Repr

/-- The steps of the calls. -/
inductive RetentionSite where
  | inspectRoot
  | readLedger
  | readCurrent
  | readIdentity (id : String)
  | lookRelease (name : String)
  | walkRelease (name : String)
  | listReleases
  | inspectRelease (name : String)
  | randomToken
  | inspectNext
  | removeNext
  | createNext
  | renameLedger (value : ReleaseLedger)
  | syncLedger
  | checkpoint (name : String)
  | renameRelease (options : CollectOptions) (entry : DeletingRelease)
  | unlinkTrash (options : CollectOptions) (entry : DeletingRelease)
  | removeTrash (options : CollectOptions) (entry : DeletingRelease)
  | syncReleases
deriving DecidableEq, Repr

/-- What the host answers: the names in the directory, what an interrupted removal has left, and a random
token. -/
structure RetentionAnswer where
  names : List String := []
  left : List (List String) := []
  token : TrashToken := default

instance : Inhabited RetentionAnswer := ⟨{}⟩

/-- A process of a call. -/
abbrev RetentionProcess (α : Type) : Type :=
  Process RetentionSite (Journaled RetentionDisk) RetentionAnswer RetentionError α

/-- A step that only reads. -/
def retentionAsk {β : Type} (site : RetentionSite)
    (f : RetentionAnswer → RetentionDisk → Except RetentionError β) : RetentionProcess β :=
  Process.ask site fun answer disk => f answer disk.current

/-- A step that changes the files. -/
def retentionModify (site : RetentionSite) (f : RetentionDisk → RetentionDisk) : RetentionProcess Unit :=
  Process.modify site fun disk => disk.update f

/-- A call that may fail and leaves the files alone. -/
def retentionCall (site : RetentionSite) : RetentionProcess Unit :=
  retentionAsk site fun _ _ => .ok ()

/-- What lies under a name changes. -/
def RetentionDisk.place (name : String) (directory : Option ReleaseDirectory) (disk : RetentionDisk) :
    RetentionDisk :=
  { disk with releases := fun other => if other = name then directory else disk.releases other }

/-- `sealed` of a directory beside the others. -/
def sealedRelease (name : String) (disk : RetentionDisk) : Except RetentionError ReleaseDirectory :=
  match disk.releases name with
  | none => .error .missing
  | some directory => if directory.sealed then .ok directory else .error .unsafePath

def activeRelease (root : List String) : RetentionProcess (Option String) :=
  retentionAsk .readCurrent fun _ disk =>
    match disk.current with
    | none => .ok none
    | some path =>
      if path = [] ∨ path.dropLast ≠ root then .error .escapes
      else do
        let _ ← sealedRelease (path.getLastD "") disk
        if validReleaseId (path.getLastD "") then .ok (some (path.getLastD ""))
        else .error .invalidIdentity

def releaseIdentity (id : String) : RetentionProcess Unit := do
  Process.require (validReleaseId id = true) .invalidIdentity
  retentionAsk (.readIdentity id) fun _ disk => do
    let directory ← sealedRelease id disk
    if directory.identity = some id then .ok () else .error .metadataMismatch

/-- `atomic` from the creation of the temporary file on. -/
def writeLedger (value : ReleaseLedger) : RetentionProcess Unit := do
  Process.act .createNext fun _ disk =>
    if disk.current.next then .error .host
    else .ok ((), disk.update fun current => { current with next := true })
  retentionModify (.renameLedger value) fun disk => { disk with ledger := some value, next := false }
  Process.modify .syncLedger Journaled.sync

/-- `atomic`, for the ledger. A temporary file of an earlier process is removed first. -/
def saveLedger (value : ReleaseLedger) : RetentionProcess Unit := do
  let stale ← retentionAsk .inspectNext fun _ disk => .ok disk.next
  (if stale then retentionModify .removeNext fun disk => { disk with next := false } else pure ())
  writeLedger value

/-- The ledger that a release is entered into when none was verified before. -/
def firstVerified (current : Option String) (now : Nat) (ledger : ReleaseLedger) : ReleaseLedger :=
  match current with
  | some id => if ledger.successful = [] then { ledger with successful := [⟨id, now⟩] } else ledger
  | none => ledger

/-- A verified current release becomes the previous one. -/
def rememberPrevious (current : Option String) (ledger : ReleaseLedger) : ReleaseLedger :=
  match current with
  | some id =>
    if ledger.successful.any (·.id == id) then { ledger with previous := some id } else ledger
  | none => ledger

/-- The identity of a current release is read where it will be entered as the first verified one. -/
def identifyFirst (current : Option String) (ledger : ReleaseLedger) : RetentionProcess Unit :=
  match current with
  | some id => if ledger.successful = [] then releaseIdentity id else pure ()
  | none => pure ()

def captureReleaseRetention (root : List String) (now : Nat) : RetentionProcess Unit := do
  retentionCall .inspectRoot
  let found ← retentionAsk .readLedger fun _ disk => .ok disk.ledger
  let current ← activeRelease root
  let ledger ← Process.ofExcept (validateLedger (found.getD ⟨none, [], []⟩))
  identifyFirst current ledger
  saveLedger (rememberPrevious current (firstVerified current now ledger))

/-- The releases that stay verified, the newest one first. -/
def recordVerified (options : CollectOptions) (successful : List VerifiedRelease) : List VerifiedRelease :=
  if options.markVerified then
    (⟨options.releaseId, options.now⟩ ::
      successful.filter fun entry => entry.id ≠ options.releaseId).take 3
  else successful

/-- The set `keep`. -/
def keptReleases (options : CollectOptions) (ledger : ReleaseLedger) : List String :=
  (options.releaseId :: options.protectedIds ++ ledger.previous.toList ++
    (recordVerified options ledger.successful).map VerifiedRelease.id).eraseDups

/-- `deletionTree` of what lies under a name. -/
def inspectTree (root : List String) (mounts : List (List String)) (name : String) :
    RetentionProcess Unit :=
  retentionAsk (.walkRelease name) fun _ disk =>
    match disk.releases name with
    | none => .error .missing
    | some directory => deletionTree (root ++ [name]) mounts directory

/-- Whether something lies under a name. -/
def lookRelease (name : String) : RetentionProcess Bool :=
  retentionAsk (.lookRelease name) fun _ disk => .ok (disk.releases name).isSome

/-- The checks of an entry that an earlier call has recorded. -/
def checkRecorded (root : List String) (options : CollectOptions) (keep : List String)
    (entry : DeletingRelease) : RetentionProcess Unit := do
  Process.require (entry.id ∉ keep) .becameProtected
  let original ← lookRelease entry.id
  let trash ← lookRelease entry.trash
  Process.require (¬ (original = true ∧ trash = true)) .ambiguous
  (if original then do
    releaseIdentity entry.id
    inspectTree root options.mountPaths entry.id
  else pure ())
  (if trash then inspectTree root options.mountPaths entry.trash else pure ())

/-- The turn of the loop over the names for one release: it is recorded unless it is kept. -/
def selectRelease (root : List String) (options : CollectOptions) (keep : List String)
    (remove : List DeletingRelease) (name : String) : RetentionProcess (List DeletingRelease) := do
  Process.require (validReleaseId name = true) .invalidIdentity
  retentionAsk (.inspectRelease name) fun _ disk => (sealedRelease name disk).map fun _ => ()
  if name ∉ keep ∧ name ∉ remove.map DeletingRelease.id ∧ remove.length < 100 then do
    releaseIdentity name
    inspectTree root options.mountPaths name
    let token ← retentionAsk .randomToken fun answer _ => .ok answer.token
    pure (remove ++ [⟨name, trashName name token⟩])
  else pure remove

/-- The loop over the names. -/
def selectReleases (root : List String) (options : CollectOptions) (keep owned : List String) :
    List DeletingRelease → List String → RetentionProcess (List DeletingRelease)
  | remove, [] => pure remove
  | remove, name :: rest => do
    if isStage name then selectReleases root options keep owned remove rest
    else if inTrash name then do
      Process.require (name ∈ owned) .unrecognizedTrash
      selectReleases root options keep owned remove rest
    else do
      let more ← selectRelease root options keep remove name
      selectReleases root options keep owned more rest

/-- A rename; it does not replace a directory that holds something. -/
def RetentionDisk.moveRelease (entry : DeletingRelease) (disk : RetentionDisk) : Option RetentionDisk :=
  match disk.releases entry.id, disk.releases entry.trash with
  | none, _ => none
  | some directory, none => some ((disk.place entry.id none).place entry.trash (some directory))
  | some directory, some other =>
    if other.entries = [] then some ((disk.place entry.id none).place entry.trash (some directory)) else none

/-- An interrupted removal has left some of the entries. -/
def ReleaseDirectory.leave (left : List (List String)) (directory : ReleaseDirectory) : ReleaseDirectory :=
  { directory with entries := directory.entries.filter fun entry => entry.path ∈ left }

/-- `rm` of a directory in the trash, with everything in it. -/
def removeTrash (options : CollectOptions) (entry : DeletingRelease) : RetentionProcess Unit := do
  Process.act (.unlinkTrash options entry) fun answer disk =>
    .ok ((), disk.update fun current =>
      current.place entry.trash ((current.releases entry.trash).map (ReleaseDirectory.leave answer.left)))
  retentionModify (.removeTrash options entry) (RetentionDisk.place entry.trash none)

/-- The turn of the deletion loop for one entry, up to where its directory is gone. -/
def deleteRelease (options : CollectOptions) (entry : DeletingRelease) : RetentionProcess Unit := do
  let original ← lookRelease entry.id
  (if original then do
    Process.act (.renameRelease options entry) fun _ disk =>
      match disk.current.moveRelease entry with
      | none => .error .host
      | some moved => .ok ((), disk.update fun _ => moved)
    Process.modify .syncReleases Journaled.sync
  else pure ())
  retentionCall (.checkpoint "trashed")
  removeTrash options entry
  Process.modify .syncReleases Journaled.sync
  retentionCall (.checkpoint "deleted")

/-- An entry leaves the journal. -/
def ReleaseLedger.forget (id : String) (ledger : ReleaseLedger) : ReleaseLedger :=
  { ledger with deleting := ledger.deleting.filter fun entry => entry.id ≠ id }

/-- The deletion loop. -/
def deleteReleases (options : CollectOptions) :
    ReleaseLedger → List DeletingRelease → RetentionProcess Unit
  | _, [] => pure ()
  | ledger, entry :: rest => do
    deleteRelease options entry
    saveLedger (ledger.forget entry.id)
    deleteReleases options (ledger.forget entry.id) rest

/-- What `collectReleases` reports. -/
structure CollectResult where
  removed : Nat
  retained : List String
deriving DecidableEq, Repr

/-- `collectReleases` once the ledger is read and the active release checked. -/
def collectChecked (root : List String) (options : CollectOptions) (ledger : ReleaseLedger) :
    RetentionProcess CollectResult := do
  let keep := keptReleases options ledger
  Process.each keep fun id => do
    let there ← lookRelease id
    (if there then releaseIdentity id else pure ())
  Process.each ledger.deleting (checkRecorded root options keep)
  let names ← retentionAsk .listReleases fun answer disk =>
    .ok (answer.names.filter fun name => (disk.releases name).isSome)
  let remove ← selectReleases root options keep (ledger.deleting.map DeletingRelease.trash) ledger.deleting
    names
  let next : ReleaseLedger :=
    { ledger with successful := recordVerified options ledger.successful, deleting := remove }
  saveLedger next
  retentionCall (.checkpoint "deletion-recorded")
  deleteReleases options next remove
  pure ⟨remove.length, keep.mergeSort fun a b => decide (a ≤ b)⟩

def collectReleases (root : List String) (options : CollectOptions) : RetentionProcess CollectResult := do
  retentionCall .inspectRoot
  let ledger ← retentionAsk .readLedger fun _ disk =>
    match disk.ledger with
    | none => .error .missing
    | some value => validateLedger value
  let active ← activeRelease root
  Process.require (validReleaseId options.releaseId = true) .invalidIdentity
  Process.require (active = some options.releaseId) .notActive
  releaseIdentity options.releaseId
  Process.require (∀ id ∈ options.protectedIds, validReleaseId id = true) .invalidIdentity
  collectChecked root options ledger

/-- The calls. -/
inductive RetentionOperation where
  | capture (now : Fin 9007199254740992)
  | collect (options : CollectOptions)
deriving DecidableEq, Repr

/-- The process of a call. -/
def RetentionOperation.process (root : List String) :
    RetentionOperation → RetentionProcess (Option CollectResult)
  | .capture now => do
    captureReleaseRetention root now
    pure none
  | .collect options => do
    let result ← collectReleases root options
    pure (some result)

/-- Between the calls deployments publish directories, discard what they have not published and move the
current link; a power loss takes the disk back to a state that it was in since the last sync. -/
inductive RetentionDrift where
  | publish (name : String) (directory : ReleaseDirectory)
  | discard (name : String)
  | moveCurrent (path : Option (List String))
  | powerLoss (age : Nat)

/-- What happens between the calls. Nothing is published over a directory or as trash, and only stages are
discarded. -/
def RetentionDrift.apply : RetentionDrift → Journaled RetentionDisk → Option (Journaled RetentionDisk)
  | .publish name directory, disk =>
    if (disk.current.releases name).isSome ∨ inTrash name then none
    else some (disk.update (RetentionDisk.place name (some directory)))
  | .discard name, disk =>
    if isStage name then
      some (disk.update (RetentionDisk.place name none))
    else none
  | .moveCurrent path, disk => some (disk.update fun current => { current with current := path })
  | .powerLoss age, disk => some (disk.lose age)

/-- The host starts without a ledger and without trash. -/
def retentionService (root : List String) : Service RetentionOperation RetentionSite
    (Journaled RetentionDisk) RetentionAnswer RetentionError (Option CollectResult) RetentionDrift where
  Init disk := disk.earlier = [] ∧ disk.current.ledger = none ∧
    ∀ name, inTrash name = true → disk.current.releases name = none
  program operation := operation.process root
  drift change disk := change.apply disk

end LatexRenderer
