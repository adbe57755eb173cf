import LatexRenderer.Machine.Durable
import LatexRenderer.Machine.Process
import LatexRenderer.Machine.Session

/-! # The slots of the updater

The code of the update manager lives in slots, directories under the hash of their contents. `state.json`
says which slot is current, which was current before and which is nominated; `activate` makes the nominated
slot current, and as long as it has not proved itself the state says what to go back to, while a backup
holds the state of the controller. `recover` goes back after a crash. A running controller changes its own
state at any time.
-/

namespace LatexRenderer

open Machine

/-- `pending` of the state. -/
structure PendingActivation where
  fromSlot : String
  previous : Option String
deriving DecidableEq, Repr

structure UpdaterState where
  current : String
  previous : Option String
  candidate : Option String
  pending : Option PendingActivation
deriving DecidableEq, Repr

/-- The slots that a state names. -/
def UpdaterState.named (value : UpdaterState) : List String :=
  value.current :: value.previous.toList ++ value.candidate.toList ++
    (value.pending.map fun pending => pending.fromSlot :: pending.previous.toList).getD []

/-- `/^[a-f0-9]{64}$/`. -/
def validSlotId (id : String) : Bool :=
  id.toList.length == 64 && id.toList.all fun c => c.isDigit || ('a' ≤ c && c ≤ 'f')

/-- The checks of `state`. -/
def validUpdaterState (value : UpdaterState) : Bool := value.named.all validSlotId

/-- A directory under `slots`. -/
inductive SlotDirectory where
  | absent
  | incomplete
  | verified
deriving DecidableEq, Repr

/-- What was there when an activation began. -/
structure ActivationOrigin where
  current : String
  previous : Option String
  controller : Option String
deriving DecidableEq, Repr

/-- The files: the state, the slots, the backup and the state of the controller, which may be absent.
`activation` is what was there when an activation that is neither finished nor recovered began. -/
structure UpdaterDisk where
  state : Option UpdaterState
  slots : String → SlotDirectory
  backup : Option (Option String)
  controller : Option String
  activation : Option ActivationOrigin

/-- The files and whether the update manager runs. -/
structure UpdaterHost where
  disk : Journaled UpdaterDisk
  running : Bool

/-- Which operation writes the state. -/
inductive UpdaterWrite where
  | nominate
  | begin
  | finish
  | recover
deriving DecidableEq, Repr

/-- The steps of the operations. -/
inductive UpdaterSite where
  | prepareState
  | readState
  | verify (id : String)
  | lookSlot (id : String)
  | copySlot (id : String)
  | renameSlot (id : String)
  | syncSlots
  | cleanStage
  | writeTemporary
  | renameState (write : UpdaterWrite) (value : UpdaterState)
  | syncState
  | readController
  | writeController (contents : Option String)
  | inspectBackup
  | readBackup
  | writeBackupTemporary
  | renameBackup (contents : Option String)
  | syncBackup
  | stop
  | start
  | mainPid
  | processDirectory
  | request
  | acquireLock
  | listSlots
  | inspectSlot (id : String)
  | unlinkSlot (id : String)
  | removeSlot (id : String)
  | cleanTemporaries
deriving DecidableEq, Repr

/-- What the host answers: the state that a running controller has written by then, the directory of its
process and the names in the directory of the slots. -/
structure UpdaterAnswer where
  controller : Option (Option String) := none
  directory : String := ""
  names : List String := []
deriving DecidableEq, Repr

/-- What a failed operation reports. -/
inductive UpdaterError where
  | host
  | stateMissing
  | corruptState
  | invalidId
  | identityMismatch
  | recoverFirst
  | unsafeBackup
  | otherDirectory
  | unhealthy
  | pruneDuringActivation
deriving DecidableEq, Repr

instance : Fault UpdaterError := ⟨.host⟩

/-- The texts of the errors. -/
def UpdaterError.message : UpdaterError → String
  | .host => ""
  | .stateMissing => "ENOENT"
  | .corruptState => "Updater activation state is corrupt; refusing changes"
  | .invalidId => "Invalid Updater slot ID"
  | .identityMismatch => "Updater slot identity mismatch"
  | .recoverFirst => "Recover interrupted Updater activation first"
  | .unsafeBackup => "Unsafe controller recovery state"
  | .otherDirectory => "Updater process is not running from the selected slot"
  | .unhealthy => "New Updater did not become healthy"
  | .pruneDuringActivation => "Cannot prune during Updater activation"

namespace UpdaterHost

/-- Meanwhile a running controller may have written its state. -/
def manager (s : UpdaterHost) (written : Option (Option String)) : UpdaterHost :=
  match s.running, written with
  | true, some contents => { s with disk := s.disk.update fun disk => { disk with controller := contents } }
  | _, _ => s

/-- Change the files. -/
def onDisk (s : UpdaterHost) (f : UpdaterDisk → UpdaterDisk) : UpdaterHost :=
  { s with disk := s.disk.update f }

/-- Sync a directory. -/
def sync (s : UpdaterHost) : UpdaterHost := { s with disk := s.disk.sync }

end UpdaterHost

/-- Write the state; beginning an activation remembers what was there. -/
def UpdaterDisk.save (write : UpdaterWrite) (value : UpdaterState) (disk : UpdaterDisk) : UpdaterDisk :=
  { disk with
    state := some value
    activation := match write with
      | .nominate => disk.activation
      | .begin => disk.state.map fun old => ⟨old.current, old.previous, disk.controller⟩
      | .finish | .recover => none }

/-- A slot gets a directory, or loses it. -/
def UpdaterDisk.setSlot (id : String) (directory : SlotDirectory) (disk : UpdaterDisk) : UpdaterDisk :=
  { disk with slots := fun other => if other = id then directory else disk.slots other }

/-- A process of an operation. -/
abbrev UpdaterProcess (α : Type) : Type :=
  Process UpdaterSite UpdaterHost UpdaterAnswer UpdaterError α

/-- A step, up to which a running controller went on. -/
def updaterStep {β : Type} (site : UpdaterSite)
    (f : UpdaterAnswer → UpdaterHost → Except UpdaterError (β × UpdaterHost)) : UpdaterProcess β :=
  Process.act site fun answer s => f answer (s.manager answer.controller)

/-- A step that only reads. -/
def updaterAsk {β : Type} (site : UpdaterSite)
    (f : UpdaterAnswer → UpdaterHost → Except UpdaterError β) : UpdaterProcess β :=
  updaterStep site fun answer s => (f answer s).map fun value => (value, s)

/-- A step that only changes the host. -/
def updaterModify (site : UpdaterSite) (f : UpdaterHost → UpdaterHost) : UpdaterProcess Unit :=
  updaterStep site fun _ s => .ok ((), f s)

/-- A call that may fail and leaves the host alone. -/
def updaterCall (site : UpdaterSite) : UpdaterProcess Unit :=
  updaterAsk site fun _ _ => .ok ()

namespace UpdaterSlots

/-- `state`, where the file may be missing. -/
def stateFile : UpdaterProcess (Option UpdaterState) :=
  updaterAsk .readState fun _ s =>
    match s.disk.current.state with
    | none => .ok none
    | some value => if validUpdaterState value then .ok (some value) else .error .corruptState

def state : UpdaterProcess UpdaterState := do
  match ← stateFile with
  | none => throw .stateMissing
  | some value => pure value

def save (write : UpdaterWrite) (value : UpdaterState) : UpdaterProcess Unit := do
  updaterCall .writeTemporary
  updaterModify (.renameState write value) fun s => s.onDisk (UpdaterDisk.save write value)
  updaterModify .syncState UpdaterHost.sync

def verify (id : String) : UpdaterProcess Unit := do
  Process.require (validSlotId id = true) .invalidId
  updaterAsk (.verify id) fun _ s =>
    if s.disk.current.slots id = .verified then .ok () else .error .identityMismatch

/-- `stage` of a source whose envelope has the hash `id`. The payload is checked while it is copied. -/
def stage (id : String) : UpdaterProcess String := do
  updaterCall .prepareState
  let _ ← stateFile
  let there ← updaterAsk (.lookSlot id) fun _ s => .ok (decide (s.disk.current.slots id ≠ .absent))
  if there then do
    verify id
    pure id
  else do
    updaterCall (.copySlot id)
    updaterModify (.renameSlot id) fun s => s.onDisk (UpdaterDisk.setSlot id .verified)
    updaterModify .syncSlots UpdaterHost.sync
    verify id
    updaterCall .cleanStage
    pure id

def nominate (id : String) : UpdaterProcess Unit := do
  verify id
  match ← stateFile with
  | none => save .nominate ⟨id, none, none, none⟩
  | some value => do
    Process.require (value.pending = none) .recoverFirst
    save .nominate { value with candidate := if id = value.current then none else some id }

def begin : UpdaterProcess Bool := do
  let value ← state
  Process.require (value.pending = none) .recoverFirst
  match value.candidate with
  | none => pure false
  | some candidate => do
    verify value.current
    verify candidate
    save .begin ⟨candidate, some value.current, none, some ⟨value.current, value.previous⟩⟩
    pure true

def finish : UpdaterProcess Unit := do
  let value ← state
  verify value.current
  save .finish { value with pending := none }

def recover : UpdaterProcess Bool := do
  let value ← state
  match value.pending with
  | none => pure false
  | some pending => do
    verify pending.fromSlot
    save .recover ⟨pending.fromSlot, pending.previous, none, none⟩
    pure true

/-- `safeDelete` of a slot; a removal may stop halfway. -/
def safeDelete (id : String) : UpdaterProcess Unit := do
  updaterCall (.inspectSlot id)
  updaterModify (.unlinkSlot id) fun s => s.onDisk (UpdaterDisk.setSlot id .incomplete)
  updaterModify (.removeSlot id) fun s => s.onDisk (UpdaterDisk.setSlot id .absent)

def collect : UpdaterProcess Unit := do
  let value ← state
  Process.require (value.pending = none) .pruneDuringActivation
  let keep := value.current :: value.previous.toList ++ value.candidate.toList
  Process.each keep verify
  let names ← updaterAsk .listSlots fun answer s =>
    .ok (answer.names.filter fun id => s.disk.current.slots id ≠ .absent)
  Process.each names fun id => do
    Process.require (validSlotId id = true) .invalidId
    (if id ∈ keep then pure () else safeDelete id)
  updaterCall .cleanTemporaries

end UpdaterSlots

open UpdaterSlots

/-- `restore`: the state of the controller first, and then the slots. -/
def restoreUpdater : UpdaterProcess Unit := do
  let value ← state
  if value.pending = none then pure ()
  else do
    updaterAsk .inspectBackup fun _ s =>
      if s.disk.current.backup = none then .error .unsafeBackup else .ok ()
    let contents ← updaterAsk .readBackup fun _ s =>
      s.disk.current.backup.elim (.error .unsafeBackup) .ok
    updaterModify (.writeController contents) fun s =>
      (s.onDisk fun disk => { disk with controller := contents }).sync
    let _ ← recover

/-- `slots.atomic(backup, controllerState("read"), 0o600)`. -/
def backupController : UpdaterProcess Unit := do
  let contents ← updaterAsk .readController fun _ s => .ok s.disk.current.controller
  updaterCall .writeBackupTemporary
  updaterModify (.renameBackup contents) fun s =>
    s.onDisk fun disk => { disk with backup := some contents }
  updaterModify .syncBackup UpdaterHost.sync

def healthy : UpdaterProcess Unit := do
  updaterCall .mainPid
  let value ← state
  let directory ← updaterAsk .processDirectory fun answer _ => .ok answer.directory
  Process.require (directory = value.current) .otherDirectory
  updaterCall .request

/-- The attempts to find the manager healthy. -/
def awaitHealthy : Nat → UpdaterProcess Bool
  | 0 => pure false
  | attempts + 1 => do
    let ok ← Process.attempt healthy
    if ok then pure true else awaitHealthy attempts

def stopManager : UpdaterProcess Unit := updaterModify .stop fun s => { s with running := false }

def startManager : UpdaterProcess Unit := updaterModify .start fun s => { s with running := true }

/-- The `try` block of `activate`. -/
def tryActivate : UpdaterProcess Unit := do
  restoreUpdater
  backupController
  let _ ← begin
  startManager
  let ok ← awaitHealthy 30
  Process.require (ok = true) .unhealthy
  UpdaterSlots.finish
  collect

def activateUpdater : UpdaterProcess Unit := do
  stopManager
  tryCatch tryActivate fun error => do
    stopManager
    restoreUpdater
    startManager
    throw error

def recoverPendingUpdater : UpdaterProcess Bool := do
  let seen ← state
  verify ((seen.pending.map PendingActivation.fromSlot).getD seen.current)
  if seen.pending = none then pure false
  else do
    updaterCall .acquireLock
    let value ← state
    verify ((value.pending.map PendingActivation.fromSlot).getD value.current)
    if value.pending = none then pure false
    else do
      restoreUpdater
      collect
      pure true

/-- The operations; `upgrade` is `stage`, `nominate` and `activate` one after the other. -/
inductive UpdaterOperation where
  | stage (id : String)
  | nominate (id : String)
  | activate
  | recover
  | collect
deriving DecidableEq, Repr

/-- The process of an operation; it tells whether something was recovered. -/
def UpdaterOperation.process : UpdaterOperation → UpdaterProcess Bool
  | .stage id => do
    let _ ← UpdaterSlots.stage id
    pure false
  | .nominate id => do
    UpdaterSlots.nominate id
    pure false
  | .activate => do
    activateUpdater
    pure false
  | .recover => recoverPendingUpdater
  | .collect => do
    UpdaterSlots.collect
    pure false

/-- Between the operations the manager starts, stops or writes its state, and a power loss takes the disk
back to a state that it was in since the last sync. -/
inductive UpdaterDrift where
  | manager (running : Bool)
  | controller (contents : Option String)
  | powerLoss (age : Nat)
deriving DecidableEq, Repr

/-- What happens between the operations. -/
def UpdaterDrift.apply : UpdaterDrift → UpdaterHost → UpdaterHost
  | .manager running, s => { s with running := running }
  | .controller contents, s => s.manager (some contents)
  | .powerLoss age, s => { disk := s.disk.lose age, running := false }

end LatexRenderer
