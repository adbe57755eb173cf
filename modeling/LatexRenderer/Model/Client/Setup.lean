import LatexRenderer.Machine.Process
import LatexRenderer.Machine.Session

/-! # The installation of the client

`installDistribution` unpacks a client archive beside the installation directory, moves an installation
that is there to a backup, renames the new one into place, writes its state file and repairs what belongs to
it outside. An error after the backup brings the backup back. The state file lies inside the installation
directory; `repairSetup` writes it again. A directory without a valid state file belongs to somebody else,
and is refused.
-/

namespace LatexRenderer

open Machine

/-- The platforms. -/
inductive SetupPlatform where
  | win32
  | darwin
  | linux
deriving DecidableEq, Repr

/-- `SkillTarget` and `McpTarget`. -/
inductive SetupTarget where
  | both
  | codex
  | claude
  | none
deriving DecidableEq, Repr

/-- An MCP client. -/
inductive McpClient where
  | codex
  | claude
deriving DecidableEq, Repr

def decimalDigit (c : Char) : Bool := '0' ≤ c && c ≤ '9'

/-- `[1-9][0-9]*`. -/
def positiveNumeral : List Char → Bool
  | [] => false
  | first :: rest => ('1' ≤ first && first ≤ '9') && rest.all decimalDigit

/-- `0|[1-9][0-9]*`. -/
def canonicalNumeral (digits : List Char) : Bool := digits == ['0'] || positiveNumeral digits

/-- `RELEASE_VERSION_PATTERN`, on the parts between the dots. -/
def releaseVersionParts : List (List Char) → Bool
  | [major, minor, patch] => canonicalNumeral major && canonicalNumeral minor && canonicalNumeral patch
  | [major, minor, patch, candidate] =>
    canonicalNumeral major && canonicalNumeral minor && ['-', 'r', 'c'].isSuffixOf patch &&
      canonicalNumeral (patch.take (patch.length - 3)) && positiveNumeral candidate
  | _ => false

def releaseVersion (version : String) : Bool := releaseVersionParts (version.toList.splitOn '.')

/-- `/^[a-f0-9]{64}$/`. -/
def archiveDigest (digest : String) : Bool :=
  digest.toList.length == 64 && digest.toList.all fun c => decimalDigit c || ('a' ≤ c && c ≤ 'f')

/-- `SetupPaths`, as far as the state file depends on it, with `normalizePath` on this platform and the
check of a bin directory that an earlier client recorded. -/
structure SetupPaths where
  platform : SetupPlatform
  installDirectory : String
  binDirectory : String
  normalizePath : String → String
  absoluteBin : String → Bool

/-- `ManagedSetupState`; `windowsLauncherLayout` tells whether the field is there. -/
structure ManagedSetupState where
  version : String
  archiveSha256 : String
  platform : SetupPlatform
  installDirectory : String
  binDirectory : String
  skillTarget : SetupTarget
  mcpTarget : SetupTarget
  managedMcpClients : List McpClient
  windowsUserPathAdded : Bool
  windowsLauncherLayout : Bool
  installedAt : String
  updatedAt : String
deriving DecidableEq, Repr

/-- What a state file holds: format 2, format 1, other JSON or no JSON. -/
inductive StateContent where
  | current (state : ManagedSetupState)
  | legacy (version : String) (platform : SetupPlatform) (installedAt : String)
  | unsupported
  | malformed
deriving DecidableEq, Repr

/-- The state file. -/
structure StateFile where
  regular : Bool := true
  sharedWritable : Bool := false
  foreign : Bool := false
  content : StateContent
deriving DecidableEq, Repr

/-- What `readManagedState` finds. -/
inductive ManagedState where
  | absent
  | invalid (message : String)
  | managed (state : ManagedSetupState)
deriving DecidableEq, Repr

/-- `normalizeState` of format 2. -/
def supportedState (paths : SetupPaths) (value : ManagedSetupState) : Bool :=
  releaseVersion value.version && archiveDigest value.archiveSha256 &&
    decide (value.platform = paths.platform) &&
    paths.normalizePath value.installDirectory == paths.normalizePath paths.installDirectory &&
    (paths.normalizePath value.binDirectory == paths.normalizePath paths.binDirectory ||
      (decide (paths.platform = .win32) && !value.windowsLauncherLayout && paths.absoluteBin value.binDirectory))

def normalizeState (paths : SetupPaths) : StateContent → Option ManagedSetupState
  | .current value => if supportedState paths value then some value else none
  | .legacy version platform installedAt =>
    if releaseVersion version && decide (platform = paths.platform) then
      some ⟨version, String.ofList (List.replicate 64 '0'), paths.platform, paths.installDirectory,
        paths.binDirectory, .both, .both, [], false, false, installedAt, installedAt⟩
    else none
  | .unsupported => none
  | .malformed => none

/-- What `readManagedState` makes of the file. -/
def StateFile.read (paths : SetupPaths) (file : StateFile) : ManagedState :=
  if file.regular = false then .invalid "Managed installation state is not a regular file"
  else if paths.platform ≠ .win32 ∧ (file.sharedWritable ∨ file.foreign) then
    .invalid "Managed installation state must be owned by the current user and not group/world writable"
  else if file.content = .malformed then .invalid "Managed installation state is not valid JSON"
  else match normalizeState paths file.content with
    | some state => .managed state
    | none => .invalid "Managed installation state has an unsupported format"

/-- An installation directory or a copy of it: which archive its payload is from and whether its files are
there, the state file, and the files beside it that an earlier writer of the state has left. -/
structure ClientDirectory where
  archive : String
  complete : Bool
  state : Option StateFile
  part : String → Option StateFile
  previous : String → Option StateFile

def ClientDirectory.managed (paths : SetupPaths) (directory : ClientDirectory) : ManagedState :=
  match directory.state with
  | none => .absent
  | some file => file.read paths

/-- The installation directory, and the backups and stagings beside it by their names. -/
structure ClientDisk where
  install : Option ClientDirectory
  backups : String → Option ClientDirectory
  stagings : String → Option ClientDirectory

/-- The archive of a client and its manifest: the digest and the size of the archive are those of its
bytes, and `complete` tells whether the payload in it is. -/
structure ClientDistribution where
  version : String
  archiveName : String
  sha256 : String
  size : Nat
  archiveSha256 : String
  archiveSize : Nat
  complete : Bool
deriving DecidableEq, Repr

/-- A call of `installDistribution`, with the names that it makes from its process id and the clock. -/
structure InstallRequest where
  distribution : ClientDistribution
  skillTarget : SetupTarget
  mcpTarget : SetupTarget
  staging : String
  backup : String
  now : String
deriving DecidableEq, Repr

/-- Who writes the state file: an installation, which may replace one, or a repair, which may be part of
such an installation. -/
inductive StateWriter where
  | installing (updating : Bool)
  | repairing (updating : Bool)
deriving DecidableEq, Repr

/-- The steps of the calls. -/
inductive ClientSite where
  | readState
  | lookInstall
  | lookPayload
  | makeTemporary
  | extract
  | makeParent
  | clearStaging
  | beginCopy
  | finishCopy
  | renameBackup
  | renameStaging (updating : Bool)
  | discardStaging (updating : Bool)
  | lookReplaced
  | returnBackup
  | createPart (writer : StateWriter)
  | lookState (writer : StateWriter)
  | renameAside (writer : StateWriter)
  | renamePart (writer : StateWriter)
  | chmodState (writer : StateWriter)
  | removeAside (writer : StateWriter)
  | discardPart (writer : StateWriter)
  | lookLost (writer : StateWriter)
  | lookAside (writer : StateWriter)
  | returnState (writer : StateWriter)
  | launchers
  | userPath
  | loadSkills
  | installSkills
  | repairMcp
  | inspect
  | report
  | lookBackup
  | unlinkInstall
  | removeInstall
  | restoreBackup
  | warn
  | removeTemporary (succeeded : Bool)
deriving DecidableEq, Repr

/-- What the host answers: a random id, whether the path of the user grew, which MCP clients are managed by
now, the clock, and what an interrupted removal has left of the state file. -/
structure ClientAnswer where
  token : String := ""
  pathAdded : Bool := false
  managed : List McpClient := []
  now : String := ""
  keepsState : Bool := false
deriving DecidableEq, Repr

instance : Inhabited ClientAnswer := ⟨{}⟩

/-- What a failed call reports. -/
inductive ClientError where
  | host
  | invalidManifest
  | archiveSize
  | archiveDigest
  | unmanaged
  | stateRequired (message : Option String)
  | incomplete
  | incompleteArchive
  | skillInstallerMissing
deriving DecidableEq, Repr

instance : Fault ClientError := ⟨.host⟩

/-- The texts of the errors, up to the paths in them. -/
def ClientError.message : ClientError → String
  | .host => ""
  | .invalidManifest => "Client manifest is invalid"
  | .archiveSize => "Client archive size verification failed"
  | .archiveDigest => "Client archive SHA-256 verification failed"
  | .unmanaged => "Refusing to replace installation directory without valid managed state: "
  | .stateRequired message => message.getD "Managed installation state was not found"
  | .incomplete => "Installed client payload is incomplete; run setup to reinstall it"
  | .incompleteArchive => "Client archive payload is incomplete"
  | .skillInstallerMissing => "Safe skill installer is missing: "

/-- A process of a call. -/
abbrev ClientProcess (α : Type) : Type := Process ClientSite ClientDisk ClientAnswer ClientError α

/-- A step that changes the files, where it can. -/
def clientStep (site : ClientSite) (f : ClientAnswer → ClientDisk → Option ClientDisk) : ClientProcess Unit :=
  Process.act site fun answer disk =>
    match f answer disk with
    | none => .error .host
    | some moved => .ok ((), moved)

/-- A call that may fail and leaves the files alone. -/
def clientCall (site : ClientSite) : ClientProcess Unit := Process.ask site fun _ _ => .ok ()

/-- Change the installation directory. -/
def ClientDisk.onInstall (f : ClientDirectory → Option ClientDirectory) (disk : ClientDisk) :
    Option ClientDisk :=
  disk.install.bind fun directory => (f directory).map fun changed => { disk with install := some changed }

/-- A staging appears, changes or goes. -/
def ClientDisk.setStaging (name : String) (directory : Option ClientDirectory) (disk : ClientDisk) :
    ClientDisk :=
  { disk with stagings := fun other => if other = name then directory else disk.stagings other }

/-- A backup appears or goes. -/
def ClientDisk.setBackup (name : String) (directory : Option ClientDirectory) (disk : ClientDisk) :
    ClientDisk :=
  { disk with backups := fun other => if other = name then directory else disk.backups other }

/-- The installation directory is renamed to a backup; what is there already is in the way. -/
def ClientDisk.moveToBackup (name : String) (disk : ClientDisk) : Option ClientDisk :=
  match disk.install, disk.backups name with
  | some directory, none => some { disk.setBackup name (some directory) with install := none }
  | _, _ => none

/-- A backup is renamed to the installation directory. -/
def ClientDisk.moveFromBackup (name : String) (disk : ClientDisk) : Option ClientDisk :=
  match disk.install, disk.backups name with
  | none, some directory => some { disk.setBackup name none with install := some directory }
  | _, _ => none

/-- A staging is renamed to the installation directory. -/
def ClientDisk.moveStaging (name : String) (disk : ClientDisk) : Option ClientDisk :=
  match disk.install, disk.stagings name with
  | none, some directory => some { disk.setStaging name none with install := some directory }
  | _, _ => none

def readManagedState (paths : SetupPaths) : ClientProcess ManagedState :=
  Process.ask .readState fun _ disk => .ok ((disk.install.map (ClientDirectory.managed paths)).getD .absent)

/-- `payloadIsComplete` of the installation directory. -/
def installComplete : ClientProcess Bool :=
  Process.probe .lookPayload fun disk => disk.install.any ClientDirectory.complete

/-- The new state is written beside the state file, exclusively. -/
def ClientDisk.createPart (token : String) (file : StateFile) (disk : ClientDisk) : Option ClientDisk :=
  disk.onInstall fun directory =>
    if (directory.part token).isSome then none
    else some { directory with
      part := fun other => if other = token then some file else directory.part other }

/-- The state file is renamed aside. -/
def ClientDisk.moveAside (token : String) (disk : ClientDisk) : Option ClientDisk :=
  disk.onInstall fun directory => directory.state.map fun file => { directory with
    state := none
    previous := fun other => if other = token then some file else directory.previous other }

/-- The new state is renamed over the state file. -/
def ClientDisk.publishPart (token : String) (disk : ClientDisk) : Option ClientDisk :=
  disk.onInstall fun directory => (directory.part token).map fun file => { directory with
    state := some file
    part := fun other => if other = token then none else directory.part other }

/-- The state file that was renamed aside is renamed back. -/
def ClientDisk.moveBack (token : String) (disk : ClientDisk) : Option ClientDisk :=
  disk.onInstall fun directory => (directory.previous token).map fun file => { directory with
    state := some file
    previous := fun other => if other = token then none else directory.previous other }

/-- `rm` of the state file that was renamed aside. -/
def ClientDisk.dropAside (token : String) (disk : ClientDisk) : Option ClientDisk :=
  disk.onInstall fun directory => some { directory with
    previous := fun other => if other = token then none else directory.previous other }

/-- `rm` of the new state beside the state file. -/
def ClientDisk.dropPart (token : String) (disk : ClientDisk) : Option ClientDisk :=
  disk.onInstall fun directory => some { directory with
    part := fun other => if other = token then none else directory.part other }

/-- `exists` of the state file. -/
def stateExists (site : ClientSite) : ClientProcess Bool :=
  Process.probe site fun disk => disk.install.any fun directory => directory.state.isSome

/-- `exists` of the state file that was renamed aside. -/
def asideExists (site : ClientSite) (token : String) : ClientProcess Bool :=
  Process.probe site fun disk => disk.install.any fun directory => (directory.previous token).isSome

/-- The `try` block of `writeManagedState`. -/
def swapState (paths : SetupPaths) (writer : StateWriter) (token : String) (existed : Bool) :
    ClientProcess Unit := do
  (if existed then clientStep (.renameAside writer) fun _ => ClientDisk.moveAside token else pure ())
  clientStep (.renamePart writer) fun _ => ClientDisk.publishPart token
  (if paths.platform ≠ .win32 then clientCall (.chmodState writer) else pure ())
  (if existed then clientStep (.removeAside writer) fun _ => ClientDisk.dropAside token else pure ())

/-- The `catch` block of `writeManagedState`, up to the `throw`. -/
def returnState (writer : StateWriter) (token : String) (existed : Bool) : ClientProcess Unit := do
  clientStep (.discardPart writer) fun _ => ClientDisk.dropPart token
  if existed then do
    let there ← stateExists (.lookLost writer)
    if there then pure ()
    else do
      let aside ← asideExists (.lookAside writer) token
      if aside then clientStep (.returnState writer) fun _ => ClientDisk.moveBack token else pure ()
  else pure ()

def writeManagedState (paths : SetupPaths) (writer : StateWriter) (state : ManagedSetupState) :
    ClientProcess Unit := do
  let token ← Process.act (.createPart writer) fun answer disk =>
    match ClientDisk.createPart answer.token { content := .current state } disk with
    | none => .error .host
    | some written => .ok (answer.token, written)
  let existed ← stateExists (.lookState writer)
  tryCatch (swapState paths writer token existed) fun error => do
    returnState writer token existed
    throw error

/-- What `repairSetup` does outside the installation directory for the launchers: whether the path of the
user grew. -/
def repairLaunchers (paths : SetupPaths) : ClientProcess Bool := do
  clientCall .launchers
  if paths.platform = .win32 then Process.ask .userPath fun answer _ => .ok answer.pathAdded
  else pure false

/-- What `repairSetup` does for the skills. -/
def repairSkills (target : SetupTarget) : ClientProcess Unit :=
  if target = .none then pure ()
  else do
    Process.ask .loadSkills fun _ disk =>
      if disk.install.any ClientDirectory.complete then .ok () else .error .skillInstallerMissing
    clientCall .installSkills

/-- The state that `repairSetup` writes. -/
def repairedState (paths : SetupPaths) (state : ManagedSetupState) (skill mcp : SetupTarget)
    (managed : List McpClient) (pathAdded : Bool) (now : String) : ManagedSetupState :=
  { state with
    binDirectory := paths.binDirectory
    windowsLauncherLayout := decide (paths.platform = .win32) || state.windowsLauncherLayout
    skillTarget := skill
    mcpTarget := mcp
    managedMcpClients := managed
    windowsUserPathAdded :=
      (paths.normalizePath state.binDirectory == paths.normalizePath paths.binDirectory &&
        state.windowsUserPathAdded) || pathAdded
    updatedAt := now }

/-- `repairSetup` of an installation whose state was read. -/
def repairManaged (paths : SetupPaths) (updating : Bool) (state : ManagedSetupState)
    (skillTarget mcpTarget : Option SetupTarget) : ClientProcess Unit := do
  let complete ← installComplete
  Process.require (complete = true) .incomplete
  let pathAdded ← repairLaunchers paths
  repairSkills (skillTarget.getD state.skillTarget)
  let answer ← Process.ask .repairMcp fun answer _ => .ok answer
  writeManagedState paths (.repairing updating) (repairedState paths state
    (skillTarget.getD state.skillTarget) (mcpTarget.getD state.mcpTarget) answer.managed pathAdded answer.now)
  clientCall .inspect

def repairSetup (paths : SetupPaths) (updating : Bool) (skillTarget mcpTarget : Option SetupTarget) :
    ClientProcess Unit := do
  match ← readManagedState paths with
  | .absent => throw (.stateRequired none)
  | .invalid message => throw (.stateRequired (some message))
  | .managed state => repairManaged paths updating state skillTarget mcpTarget

/-- What `installDistribution` reports. -/
inductive InstallAction where
  | installed
  | updated
  | current
  | repaired
deriving DecidableEq, Repr

/-- The payload of an archive, unpacked. -/
def ClientDistribution.payload (distribution : ClientDistribution) : ClientDirectory where
  archive := distribution.sha256
  complete := distribution.complete
  state := none
  part := fun _ => none
  previous := fun _ => none

/-- `validateManifest` and `verifyArchive`. -/
def checkDistribution (distribution : ClientDistribution) : Except ClientError Unit :=
  if releaseVersion distribution.version = false ∨
      distribution.archiveName ≠ "latex-renderer-client-" ++ distribution.version ++ ".zip" ∨
      archiveDigest distribution.sha256 = false ∨ distribution.size = 0 ∨ 26214400 < distribution.size then
    .error .invalidManifest
  else if distribution.archiveSize ≠ distribution.size then .error .archiveSize
  else if distribution.archiveSha256 ≠ distribution.sha256 then .error .archiveDigest
  else .ok ()

def baseState (paths : SetupPaths) (request : InstallRequest) (previous : Option ManagedSetupState) :
    ManagedSetupState where
  version := request.distribution.version
  archiveSha256 := request.distribution.sha256
  platform := paths.platform
  installDirectory := paths.installDirectory
  binDirectory := paths.binDirectory
  skillTarget := request.skillTarget
  mcpTarget := request.mcpTarget
  managedMcpClients := (previous.map ManagedSetupState.managedMcpClients).getD []
  windowsUserPathAdded := previous.any fun state =>
    paths.normalizePath state.binDirectory == paths.normalizePath paths.binDirectory &&
      state.windowsUserPathAdded
  windowsLauncherLayout := false
  installedAt := (previous.map ManagedSetupState.installedAt).getD request.now
  updatedAt := request.now

/-- `extractClientArchive` and the copy of the payload beside the installation directory. -/
def stageClient (request : InstallRequest) : ClientProcess Unit := do
  clientCall .extract
  Process.require (request.distribution.complete = true) .incompleteArchive
  clientCall .makeParent
  clientStep .clearStaging fun _ disk => some (disk.setStaging request.staging none)
  clientStep .beginCopy fun _ disk =>
    some (disk.setStaging request.staging (some { request.distribution.payload with complete := false }))
  clientStep .finishCopy fun _ disk =>
    some (disk.setStaging request.staging (some request.distribution.payload))

/-- `exists` of the installation directory. -/
def installExists (site : ClientSite) : ClientProcess Bool :=
  Process.probe site fun disk => disk.install.isSome

/-- The rename of the new installation into place, with the inner handler. -/
def placeClient (request : InstallRequest) (updating : Bool) : ClientProcess Unit :=
  tryCatch (clientStep (.renameStaging updating) fun _ => ClientDisk.moveStaging request.staging)
    fun error => do
      clientStep (.discardStaging updating) fun _ disk => some (disk.setStaging request.staging none)
      (if updating then do
        let there ← installExists .lookReplaced
        if there then pure ()
        else clientStep .returnBackup fun _ => ClientDisk.moveFromBackup request.backup
      else pure ())
      throw error

/-- The state file, the repair and the report of the new installation. -/
def settleClient (paths : SetupPaths) (request : InstallRequest) (updating : Bool)
    (previous : Option ManagedSetupState) : ClientProcess Unit := do
  writeManagedState paths (.installing updating) (baseState paths request previous)
  repairSetup paths updating (some request.skillTarget) (some request.mcpTarget)
  clientCall .report

/-- `rm` of the installation directory, with everything in it. -/
def removeInstall : ClientProcess Unit := do
  clientStep .unlinkInstall fun answer disk => some { disk with
    install := disk.install.map fun directory => { directory with
      complete := false
      state := if answer.keepsState then directory.state else none } }
  clientStep .removeInstall fun _ disk => some { disk with install := none }

/-- The outer handler, where there is a backup. -/
def restoreClient (request : InstallRequest) : ClientProcess Unit := do
  let there ← Process.probe .lookBackup fun disk => (disk.backups request.backup).isSome
  if there then do
    removeInstall
    clientStep .restoreBackup fun _ => ClientDisk.moveFromBackup request.backup
    clientCall .warn
  else pure ()

/-- The `try` block of `installDistribution` with its handler. -/
def replaceClient (paths : SetupPaths) (request : InstallRequest) (updating : Bool)
    (previous : Option ManagedSetupState) : ClientProcess Unit := do
  stageClient request
  if updating then
    tryCatch (do
      clientStep .renameBackup fun _ => ClientDisk.moveToBackup request.backup
      placeClient request true
      settleClient paths request true previous) fun error => do
        restoreClient request
        throw error
  else do
    placeClient request false
    settleClient paths request false previous

/-- `installDistribution` after the check for the current version. -/
def installClient (paths : SetupPaths) (request : InstallRequest) (updating : Bool)
    (previous : Option ManagedSetupState) : ClientProcess InstallAction := do
  clientCall .makeTemporary
  match ← Process.outcome (replaceClient paths request updating previous) with
  | .ok _ => do
    clientCall (.removeTemporary true)
    pure (if updating then .updated else .installed)
  | .error error => do
    clientCall (.removeTemporary false)
    throw error

/-- The state that `readManagedState` found, if it is a managed one. -/
def ManagedState.found : ManagedState → Option ManagedSetupState
  | .managed state => some state
  | _ => none

def installDistribution (paths : SetupPaths) (request : InstallRequest) : ClientProcess InstallAction := do
  Process.ofExcept (checkDistribution request.distribution)
  let existing ← readManagedState paths
  let there ← installExists .lookInstall
  Process.require (¬ (there = true ∧ existing.found = none)) .unmanaged
  let complete ←
    (if existing.found.any fun state => state.archiveSha256 == request.distribution.sha256 then
      installComplete
    else pure false)
  if complete then do
    repairSetup paths false (some request.skillTarget) (some request.mcpTarget)
    clientCall .report
    pure .current
  else installClient paths request there existing.found

/-- The calls. -/
inductive ClientOperation where
  | install (request : InstallRequest)
  | repair (skillTarget mcpTarget : Option SetupTarget)
deriving DecidableEq, Repr

/-- The process of a call. -/
def ClientOperation.process (paths : SetupPaths) : ClientOperation → ClientProcess InstallAction
  | .install request => installDistribution paths request
  | .repair skillTarget mcpTarget => do
    repairSetup paths false skillTarget mcpTarget
    pure .repaired

/-- The directory is a managed installation. -/
def ClientDirectory.Managed (paths : SetupPaths) (directory : ClientDirectory) : Prop :=
  ∃ state, directory.managed paths = .managed state

/-- An installation directory that is there is managed. -/
def ClientDisk.Good (paths : SetupPaths) (disk : ClientDisk) : Prop :=
  ∀ directory, disk.install = some directory → directory.Managed paths

/-- What is under a backup name is a managed installation. -/
def ClientDisk.BackupsManaged (paths : SetupPaths) (disk : ClientDisk) : Prop :=
  ∀ name directory, disk.backups name = some directory → directory.Managed paths

/-- The host starts without an installation or with a managed one; backups are of managed ones. -/
def clientService (paths : SetupPaths) :
    Service ClientOperation ClientSite ClientDisk ClientAnswer ClientError InstallAction Empty where
  Init disk := disk.Good paths ∧ disk.BackupsManaged paths
  program operation := operation.process paths
  drift change _ := change.elim

end LatexRenderer
