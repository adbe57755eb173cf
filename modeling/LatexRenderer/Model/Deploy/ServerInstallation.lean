import LatexRenderer.Machine.Files
import LatexRenderer.Machine.Session

/-! # The installation transaction

`applyInstallation` installs a prepared host, or changes the ingress of an installed one: it writes a
private journal with the old and the new contents of fixed file slots, stops the units, creates keys and
the owner of an initial installation, replaces the slots, starts the units and checks their health.
`recoverInstallation` ends an interrupted transaction, in the foreground or before the units start at
boot. Everything runs under the mutation lock of the host.
-/

namespace LatexRenderer

open Machine

/-- `kind` of the journal. -/
inductive InstallationKind where
  | initial
  | ingress
deriving DecidableEq, Repr

/-- `phase` of the journal. -/
inductive InstallationPhase where
  | pending
  | ownerReady
  | committed
deriving DecidableEq, Repr

/-- What `host.ownerState` answers. -/
inductive OwnerState where
  | none
  | ours
  | foreign
deriving DecidableEq, Repr

/-- A snapshot of file slots; `none` is an absent file. -/
abbrev SlotContents : Type := List (String × Option String)

structure InstallationJournal where
  kind : InstallationKind
  id : String
  phase : InstallationPhase
  before : SlotContents
  after : SlotContents
  units : List String
deriving DecidableEq, Repr

/-- The approved request: the host's kind, the slots of the candidate, the snapshot it was reviewed over
(which stands for its fingerprint), the files that the host makes of it and its units. -/
structure InstallationRequest where
  kind : InstallationKind
  slots : List String
  base : SlotContents
  files : SlotContents
  units : List String
deriving DecidableEq, Repr

def allowedInstallationUnits : List String :=
  ["api", "admin-api", "remote-mcp", "internal-api", "worker", "web", "standalone-gateway", "ingress",
    "image-manager", "update-manager"].map (fun name => "latex-renderer-" ++ name ++ ".service") ++
  ["latex-renderer-status.socket"] ++
  ["backup", "audit-export", "cleanup", "image-log-cleanup", "image-operation-watchdog",
    "update-refresh", "update-recovery-gc", "worker-reconcile", "engine-idle"].map
    (fun name => "latex-renderer-" ++ name ++ ".timer")

/-- The checks of `validateInstallationJournal` on one snapshot. -/
def validSlotContents (entries : SlotContents) : Bool :=
  entries.length ≤ 12 && entries.all fun entry =>
    entry.1.toList.length != 0 && entry.1.toList.all Char.isAlpha &&
      (entry.2.all fun contents => contents.utf8ByteSize ≤ 600 * 1024)

def validateInstallationJournal (value : InstallationJournal) : Bool :=
  value.id.toList.length == 48 &&
    (value.id.toList.all fun c => ('a' ≤ c && c ≤ 'f') || ('0' ≤ c && c ≤ '9')) &&
    value.units.length ≤ 24 && value.units.all (allowedInstallationUnits.contains ·) &&
    decide value.units.Nodup && validSlotContents value.before && validSlotContents value.after &&
    (value.before.map Prod.fst).isPerm (value.after.map Prod.fst)

/-- What a failed call reports. -/
inductive InstallationError where
  | host
  | unsafeTemporary
  | temporaryExists
  | unsupportedSlot
  | invalidJournal
  | recoverFirst
  | reviewStale
  | pendingDiffers
  | consumerDidNotStop
  | consumerDidNotStart
  | consumerStopped
  | changedDuringHealth
  | changedOutsideTransaction
  | foreignOwner
  | committedMismatch
  | ownerChanged
  | bootRequiresStopped
  | restoredDidNotStart
  | restoredStopped
  | restoredChanged
  | committedOwnerMissing
  | ownerNotCommitted
  | recoveryRequired
  | previousConfigurationRestored
deriving DecidableEq, Repr

instance : Fault InstallationError := ⟨.host⟩

/-- The texts of the errors. -/
def InstallationError.message : InstallationError → String
  | .host => ""
  | .unsafeTemporary => "Unsafe installation temporary entry"
  | .temporaryExists => "EEXIST"
  | .unsupportedSlot => "Unsupported installation file slot"
  | .invalidJournal => "Invalid installation recovery journal"
  | .recoverFirst => "Recover installation first"
  | .reviewStale => "Installation review is stale"
  | .pendingDiffers =>
    "Pending installation differs; recover the reviewed configuration first"
  | .consumerDidNotStop => "Consumer did not stop"
  | .consumerDidNotStart => "Consumer did not start"
  | .consumerStopped => "Consumer stopped during health checks"
  | .changedDuringHealth => "Installation changed during health checks"
  | .changedOutsideTransaction => "Installation file changed outside transaction"
  | .foreignOwner => "Installation owner changed outside transaction"
  | .committedMismatch => "Committed installation state does not match"
  | .ownerChanged => "Existing owner was changed or removed"
  | .bootRequiresStopped => "Boot recovery requires stopped services"
  | .restoredDidNotStart => "Restored consumer did not start"
  | .restoredStopped => "Restored consumer stopped during health checks"
  | .restoredChanged => "Restored installation changed during recovery"
  | .committedOwnerMissing => "Committed owner is missing"
  | .ownerNotCommitted => "Initial owner was not committed"
  | .recoveryRequired => "INSTALLATION_FAILED_RECOVERY_REQUIRED"
  | .previousConfigurationRestored => "INGRESS_APPLY_FAILED_PREVIOUS_CONFIGURATION_RESTORED"

/-- The host that a transaction works on: the file slots that the adapter fixes, the journal, the
transaction that created the owner of the database and whether its keys exist. `drawn` lists the
transaction ids that were ever drawn. -/
structure InstallationHost where
  supported : List String
  slot : String → AtomicFile (Option String)
  journal : AtomicFile (Option InstallationJournal)
  owner : Option String
  keys : Bool
  drawn : List String

/-- One file slot. -/
def slotFile (name : String) : Field InstallationHost (AtomicFile (Option String)) where
  get s := s.slot name
  set s file := { s with slot := fun other => if other = name then file else s.slot other }
  get_set _ _ := by simp
  set_set s f g := by
    simp only [InstallationHost.mk.injEq, and_self, and_true, true_and]
    funext other
    split <;> rfl
  set_get s := by
    obtain ⟨supported, slot, journal, owner, keys, drawn⟩ := s
    simp only [InstallationHost.mk.injEq, and_self, and_true, true_and]
    funext other
    split
    · simp_all
    · rfl

def installationJournalFile : Field InstallationHost (AtomicFile (Option InstallationJournal)) where
  get := (·.journal)
  set s file := { s with journal := file }
  get_set _ _ := rfl
  set_set _ _ _ := rfl
  set_get _ := rfl

/-- Where a step of `finish` belongs: an apply of one kind, or a recovery. -/
inductive InstallationOrigin where
  | apply (kind : InstallationKind)
  | recovery
deriving DecidableEq, Repr

/-- The steps of a transaction. -/
inductive InstallationSite where
  | inspectRoot
  | readJournal
  | inspectJournalTemporary
  | discardJournalTemporary
  | createJournalTemporary
  | renameJournal (origin : InstallationOrigin) (value : InstallationJournal)
  | syncJournal (origin : InstallationOrigin) (phase : InstallationPhase)
  | inspectCleared (origin : InstallationOrigin)
  | unlinkJournal (origin : InstallationOrigin)
  | syncCleared (origin : InstallationOrigin)
  | readSlot (name : String)
  | inspectSlotTemporary (name : String)
  | discardSlotTemporary (name : String)
  | createSlotTemporary (name : String)
  | renameSlot (name : String) (contents : String)
  | unlinkSlot (name : String)
  | syncSlot (name : String)
  | ownerState
  | preflight
  | validateCredentials
  | files
  | drawId
  | stop (unit : String)
  | active (unit : String)
  | ensureSecrets
  | createOwner
  | validatePublished
  | prepareServices
  | start (unit : String)
  | health
  | finalize (origin : InstallationOrigin)
deriving DecidableEq, Repr

/-- What the host answers: whether a unit is active, the state of an existing owner and a random id. -/
structure InstallationAnswer where
  active : Bool := false
  owner : OwnerState := .ours
  id : String := ""
deriving DecidableEq, Repr

/-- A process of the transaction. -/
abbrev InstallationProcess (α : Type) : Type :=
  Process InstallationSite InstallationHost InstallationAnswer InstallationError α

/-- A call of the host that leaves the files alone. -/
def installationCall (site : InstallationSite) : InstallationProcess Unit :=
  Process.ask site fun _ _ => .ok ()

def unitActive (unit : String) : InstallationProcess Bool :=
  Process.ask (.active unit) fun answer _ => .ok answer.active

/-- Remove the temporary file of an entry if a killed writer left one that is safe to remove. -/
def removeStale {α : Type} (field : Field InstallationHost (AtomicFile α))
    (inspect discard : InstallationSite) : InstallationProcess Unit := do
  let stale ← Process.ask inspect fun _ s => .ok (field.get s).temporary.visible
  if stale then Process.modify discard fun s => field.set s (field.get s).discard
  else pure ()

namespace ServerInstallStore

/-- `read` of a slot; only the slots of the adapter are there to be read. -/
def read (name : String) : InstallationProcess (Option String) :=
  Process.ask (.readSlot name) fun _ s =>
    if name ∈ s.supported then .ok (s.slot name).entry.visible else .error .unsupportedSlot

/-- The slots of a journal are slots of the adapter. -/
def supportsJournal (s : InstallationHost) (value : InstallationJournal) : Bool :=
  (value.before ++ value.after).all fun entry => s.supported.contains entry.1

/-- `write` of a slot. -/
def write (name : String) (contents : Option String) : InstallationProcess Unit := do
  let _ ← read name
  match contents with
  | none => Process.unlinkFile (slotFile name) (.unlinkSlot name) (.syncSlot name)
  | some text => do
    removeStale (slotFile name) (.inspectSlotTemporary name) (.discardSlotTemporary name)
    Process.replaceFile (slotFile name) (.createSlotTemporary name) (.renameSlot name text) (.syncSlot name)
      .temporaryExists (some text)

def journal : InstallationProcess (Option InstallationJournal) := do
  installationCall .inspectRoot
  Process.ask .readJournal fun _ s =>
    match s.journal.entry.visible with
    | none => .ok none
    | some value =>
      if validateInstallationJournal value then
        if supportsJournal s value then .ok (some value) else .error .unsupportedSlot
      else .error .invalidJournal

def saveJournal (origin : InstallationOrigin) (value : InstallationJournal) : InstallationProcess Unit := do
  installationCall .inspectRoot
  Process.require (validateInstallationJournal value = true) .invalidJournal
  Process.ask .inspectRoot fun _ s =>
    if supportsJournal s value then .ok () else .error .unsupportedSlot
  removeStale installationJournalFile .inspectJournalTemporary .discardJournalTemporary
  Process.replaceFile installationJournalFile .createJournalTemporary (.renameJournal origin value)
    (.syncJournal origin value.phase) .temporaryExists (some value)

def clear (origin : InstallationOrigin) : InstallationProcess Unit := do
  installationCall (.inspectCleared origin)
  Process.unlinkFile installationJournalFile (.unlinkJournal origin) (.syncCleared origin)

def snapshotFiles : List String → InstallationProcess SlotContents
  | [] => pure []
  | name :: rest => do
    let contents ← read name
    let others ← snapshotFiles rest
    pure ((name, contents) :: others)

def replace (entries : SlotContents) : InstallationProcess Unit :=
  Process.each entries fun entry => write entry.1 entry.2

/-- `assertCompatible`: every slot has its contents before or after. -/
def assertCompatible (value : InstallationJournal) : InstallationProcess Unit := do
  let current ← snapshotFiles (value.after.map Prod.fst)
  Process.require (∀ entry ∈ current, entry ∈ value.before ∨ entry ∈ value.after)
    .changedOutsideTransaction

end ServerInstallStore

open ServerInstallStore

/-- `host.ownerState`: for an initial installation the transaction that created the owner decides. -/
def ownerState (kind : InstallationKind) (id : String) : InstallationProcess OwnerState :=
  Process.ask .ownerState fun answer s =>
    match kind with
    | .ingress => .ok answer.owner
    | .initial =>
      match s.owner with
      | none => .ok .none
      | some creator => .ok (if creator = id then .ours else .foreign)

/-- The loops that ask whether every unit is active, or whether none is. -/
def checkInstallationUnits (units : List String) (expected : Bool) (error : InstallationError) :
    InstallationProcess Unit :=
  Process.each units fun unit => do
    let running ← unitActive unit
    Process.require (running = expected) error

/-- `unit.endsWith(suffix)`. -/
def unitEndsWith (suffix unit : String) : Bool := suffix.toList.isSuffixOf unit.toList

/-- The ingress, the timers, the other units and last the managers. -/
def stopOrder (units : List String) : List String :=
  units.filter (· == "latex-renderer-ingress.service") ++ units.filter (unitEndsWith ".timer") ++
    units.filter (fun unit => unit != "latex-renderer-ingress.service" && !unitEndsWith ".timer" unit &&
      !unitEndsWith "-manager.service" unit) ++
    units.filter (unitEndsWith "-manager.service")

def stopUnits (units : List String) : InstallationProcess Unit := do
  Process.each (stopOrder units) fun unit => installationCall (.stop unit)
  checkInstallationUnits units false .consumerDidNotStop

/-- `finish` up to the point where the new installation has proved itself. -/
def publish (origin : InstallationOrigin) (value : InstallationJournal) : InstallationProcess Unit := do
  stopUnits value.units
  saveJournal origin { value with phase := .ownerReady }
  replace value.after
  installationCall .validatePublished
  installationCall .prepareServices
  Process.each value.units fun unit => installationCall (.start unit)
  checkInstallationUnits value.units true .consumerDidNotStart
  installationCall .health
  checkInstallationUnits value.units true .consumerStopped
  let published ← snapshotFiles (value.after.map Prod.fst)
  Process.require (published = value.after) .changedDuringHealth

/-- `finish` from there on. -/
def commit (origin : InstallationOrigin) (value : InstallationJournal) : InstallationProcess Unit := do
  saveJournal origin { value with phase := .committed }
  installationCall (.finalize origin)
  clear origin

def finish (origin : InstallationOrigin) (value : InstallationJournal) : InstallationProcess Unit := do
  publish origin value
  commit origin value

/-- What `recoverInstallation` returns. -/
inductive InstallationRecovery where
  | nothing
  | committed
  | rolledBack
  | pendingHealth
  | awaitingCredentials
deriving DecidableEq, Repr

/-- The recovery of a committed journal. -/
def recoverCommitted (value : InstallationJournal) (owner : OwnerState) (beforeStart : Bool) :
    InstallationProcess InstallationRecovery := do
  let published ← snapshotFiles (value.after.map Prod.fst)
  Process.require (owner = .ours ∧ published = value.after) .committedMismatch
  if beforeStart then do
    installationCall (.finalize .recovery)
    clear .recovery
    pure .committed
  else do
    finish .recovery value
    pure .committed

/-- The units are stopped, or at boot are required to be. -/
def quiesceUnits (units : List String) (beforeStart : Bool) : InstallationProcess Unit :=
  if beforeStart then checkInstallationUnits units false .bootRequiresStopped else stopUnits units

/-- The restored consumers of an ingress change are started in the foreground. -/
def startRestored (units : List String) : InstallationProcess Unit := do
  Process.each units fun unit => installationCall (.start unit)
  checkInstallationUnits units true .restoredDidNotStart
  installationCall .health
  checkInstallationUnits units true .restoredStopped

/-- The recovery of an ingress change that was not committed. -/
def recoverIngress (value : InstallationJournal) (owner : OwnerState) (beforeStart : Bool) :
    InstallationProcess InstallationRecovery := do
  Process.require (owner = .ours) .ownerChanged
  quiesceUnits value.units beforeStart
  replace value.before
  installationCall .validatePublished
  installationCall .prepareServices
  (if beforeStart then pure () else startRestored value.units)
  let restored ← snapshotFiles (value.before.map Prod.fst)
  Process.require (restored = value.before) .restoredChanged
  clear .recovery
  pure .rolledBack

/-- The recovery of an initial installation that was not committed: forward once the owner exists. -/
def recoverInitial (value : InstallationJournal) (owner : OwnerState) (beforeStart : Bool) :
    InstallationProcess InstallationRecovery := do
  if owner = .ours then
    if beforeStart then do
      checkInstallationUnits value.units false .bootRequiresStopped
      replace value.after
      installationCall .validatePublished
      installationCall .prepareServices
      pure .pendingHealth
    else do
      finish .recovery value
      pure .committed
  else do
    Process.require (value.phase = .pending) .committedOwnerMissing
    quiesceUnits value.units beforeStart
    replace value.before
    pure .awaitingCredentials

def recoverInstallation (beforeStart : Bool) : InstallationProcess InstallationRecovery := do
  match ← journal with
  | none => pure .nothing
  | some value => do
    Process.require (validateInstallationJournal value = true) .invalidJournal
    assertCompatible value
    let owner ← ownerState value.kind value.id
    Process.require (owner ≠ .foreign) .foreignOwner
    if value.phase = .committed then recoverCommitted value owner beforeStart
    else if value.kind = .ingress then recoverIngress value owner beforeStart
    else recoverInitial value owner beforeStart

/-- Only a pending journal without an owner may be reviewed again. -/
def requireReviewable : Option InstallationJournal → InstallationProcess Unit
  | none => pure ()
  | some value => do
    Process.require (value.phase = .pending) .recoverFirst
    let owner ← ownerState value.kind value.id
    Process.require (owner = .none) .recoverFirst

/-- `reviewInstallation`; it returns the snapshot whose fingerprint is approved. -/
def reviewInstallation (request : InstallationRequest) : InstallationProcess SlotContents := do
  let pending ← journal
  requireReviewable pending
  installationCall .preflight
  snapshotFiles request.slots

/-- The journal of the transaction: the pending one, or a new one under a random id. An id that was drawn
before is not drawn again. -/
def transactionJournal (request : InstallationRequest) (before : SlotContents)
    (pending : Option InstallationJournal) : InstallationProcess InstallationJournal :=
  match pending with
  | some value => pure value
  | none => do
    let id ← Process.act .drawId fun answer s =>
      if answer.id ∈ s.drawn then .error .host
      else .ok (answer.id, { s with drawn := answer.id :: s.drawn })
    let value : InstallationJournal := ⟨request.kind, id, .pending, before, request.files, request.units⟩
    Process.require (validateInstallationJournal value = true) .invalidJournal
    pure value

/-- `host.createOwner`; it refuses a database that has an owner. -/
def createOwner (id : String) : InstallationProcess Unit :=
  Process.act .createOwner fun _ s =>
    match s.owner with
    | none => .ok ((), { s with owner := some id })
    | some _ => .error .host

/-- The `try` block of `applyInstallation`. -/
def provision (value : InstallationJournal) : InstallationProcess Unit := do
  stopUnits value.units
  (if value.kind = .initial then do
    Process.modify .ensureSecrets fun s => { s with keys := true }
    createOwner value.id
  else pure ())
  let owner ← ownerState value.kind value.id
  Process.require (owner = .ours) .ownerNotCommitted
  saveJournal (.apply value.kind) { value with phase := .ownerReady }
  finish (.apply value.kind) value

/-- Its `catch` block. -/
def provisionFailed (value : InstallationJournal) : InstallationProcess Unit :=
  if value.kind = .ingress then do
    tryCatch (do let _ ← recoverInstallation false) fun _ => throw .recoveryRequired
    throw .previousConfigurationRestored
  else throw .recoveryRequired

/-- `applyInstallation` up to the point where its journal is durable. -/
def prepareInstallation (request : InstallationRequest) : InstallationProcess InstallationJournal := do
  let reviewed ← reviewInstallation request
  Process.require (reviewed = request.base) .reviewStale
  installationCall .validateCredentials
  let before ← snapshotFiles request.slots
  installationCall .files
  let pending ← journal
  Process.require (∀ value ∈ pending, value.after = request.files ∧ value.before = before) .pendingDiffers
  let value ← transactionJournal request before pending
  saveJournal (.apply value.kind) value
  pure value

def applyInstallation (request : InstallationRequest) : InstallationProcess Unit := do
  let value ← prepareInstallation request
  tryCatch (provision value) fun _ => provisionFailed value

/-- The calls of the privileged adapter. -/
inductive InstallationAction where
  | applyInstallation (request : InstallationRequest)
  | recoverInstallation (beforeStart : Bool)
deriving DecidableEq, Repr

/-- What a call returns. -/
inductive InstallationResult where
  | installed
  | recovered (recovery : InstallationRecovery)
deriving DecidableEq, Repr

/-- The process of a call. -/
def InstallationAction.process : InstallationAction → InstallationProcess InstallationResult
  | .applyInstallation request => do
    LatexRenderer.applyInstallation request
    pure .installed
  | .recoverInstallation beforeStart => do
    let recovery ← LatexRenderer.recoverInstallation beforeStart
    pure (.recovered recovery)

/-- A power loss between two calls; every unsynced change of a directory is taken back or is not. -/
structure InstallationPowerLoss where
  slot : String → Bool
  slotTemporary : String → Bool
  journal : Bool
  journalTemporary : Bool

/-- What a power loss leaves. -/
def InstallationHost.lose (s : InstallationHost) (loss : InstallationPowerLoss) : InstallationHost :=
  { s with
    slot := fun name => (s.slot name).lose (loss.slot name) (loss.slotTemporary name)
    journal := s.journal.lose loss.journal loss.journalTemporary }

/-- The host starts without a journal, and with an owner that no later transaction will be named after. -/
def installationService : Service InstallationAction InstallationSite InstallationHost InstallationAnswer
    InstallationError InstallationResult InstallationPowerLoss where
  Init s := s.journal.entry = .settled none ∧ (∀ name, (s.slot name).entry = .settled (s.slot name).entry.visible) ∧
    ∀ creator ∈ s.owner, creator ∈ s.drawn
  program action := action.process
  drift loss s := some (s.lose loss)

end LatexRenderer
