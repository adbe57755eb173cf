import LatexRenderer.Machine.Durable
import LatexRenderer.Machine.Process
import LatexRenderer.Machine.Session

/-! # The quiesced recovery of an update

`withQuiescedRecovery` runs a deployment on a quiet host: it records which units are active in a private
journal, stops the timers and the writers, creates a verified recovery point, names it in the journal and
runs the deployment. The recorded units are started again at the end of the run, or by the next run or the
acknowledgement of an operator when the run was interrupted. The commands hold the mutation lock of the
host. While a timer is active it may start a maintenance job at any time, and a job may end at any time.
-/

namespace LatexRenderer

open Machine

/-- The units that a recovery knows. -/
inductive RecoveryUnit where
  | backupTimer | cleanupTimer | auditExportTimer | updateRefreshTimer | imageRefreshTimer
  | imageOperationWatchdogTimer | workerReconcileTimer | engineIdleTimer | imageLogCleanupTimer
  | lanRenewTimer
  | lanHttps | lanRenew | lanAuthority | ingress | standaloneGateway | api | internalApi | adminApi
  | adminWeb | web | remoteMcp | worker
  | backup | cleanup | auditExport
  | statusSocket
deriving DecidableEq, Repr

namespace RecoveryUnit

def timers : List RecoveryUnit :=
  [backupTimer, cleanupTimer, auditExportTimer, updateRefreshTimer, imageRefreshTimer,
    imageOperationWatchdogTimer, workerReconcileTimer, engineIdleTimer, imageLogCleanupTimer, lanRenewTimer]

def writers : List RecoveryUnit :=
  [lanHttps, lanRenew, lanAuthority, ingress, standaloneGateway, api, internalApi, adminApi, adminWeb, web,
    remoteMcp, worker]

def maintenance : List RecoveryUnit := [backup, cleanup, auditExport]

def units : List RecoveryUnit := timers ++ writers ++ [statusSocket]

/-- The name of the unit. -/
def name : RecoveryUnit → String
  | backupTimer => "latex-renderer-backup.timer"
  | cleanupTimer => "latex-renderer-cleanup.timer"
  | auditExportTimer => "latex-renderer-audit-export.timer"
  | updateRefreshTimer => "latex-renderer-update-refresh.timer"
  | imageRefreshTimer => "latex-renderer-image-refresh.timer"
  | imageOperationWatchdogTimer => "latex-renderer-image-operation-watchdog.timer"
  | workerReconcileTimer => "latex-renderer-worker-reconcile.timer"
  | engineIdleTimer => "latex-renderer-engine-idle.timer"
  | imageLogCleanupTimer => "latex-renderer-image-log-cleanup.timer"
  | lanRenewTimer => "latex-renderer-lan-renew.timer"
  | lanHttps => "latex-renderer-lan-https.service"
  | lanRenew => "latex-renderer-lan-renew.service"
  | lanAuthority => "latex-renderer-lan-authority.service"
  | ingress => "latex-renderer-ingress.service"
  | standaloneGateway => "latex-renderer-standalone-gateway.service"
  | api => "latex-renderer-api.service"
  | internalApi => "latex-renderer-internal-api.service"
  | adminApi => "latex-renderer-admin-api.service"
  | adminWeb => "latex-renderer-admin-web.service"
  | web => "latex-renderer-web.service"
  | remoteMcp => "latex-renderer-remote-mcp.service"
  | worker => "latex-renderer-worker.service"
  | backup => "latex-renderer-backup.service"
  | cleanup => "latex-renderer-cleanup.service"
  | auditExport => "latex-renderer-audit-export.service"
  | statusSocket => "latex-renderer-status.socket"

end RecoveryUnit

/-- The identity of a process. -/
structure RecoveryOwner where
  pid : Nat
  start : String
  boot : String
deriving DecidableEq, Repr

structure RecoveryJournal where
  owner : RecoveryOwner
  units : List RecoveryUnit
  pointId : Option String
deriving DecidableEq, Repr

/-- `/^rp-[0-9]{13}-[a-f0-9]{12}$/`. -/
def validPointId (id : String) : Bool :=
  let text := id.toList
  text.length == 29 && text.take 3 == ['r', 'p', '-'] &&
    ((text.drop 3).take 13).all Char.isDigit && (text.drop 16).take 1 == ['-'] &&
    (text.drop 17).all fun c => c.isDigit || ('a' ≤ c && c ≤ 'f')

/-- The checks of `validateJournal` on the identity of the owner. -/
def validRecoveryOwner (owner : RecoveryOwner) : Bool :=
  1 ≤ owner.pid && owner.pid ≤ 9007199254740991 &&
    (1 ≤ owner.start.length && owner.start.length ≤ 32 && owner.start.toList.all Char.isDigit) &&
    (1 ≤ owner.boot.length && owner.boot.length ≤ 128 &&
      owner.boot.toList.all fun c => c.isAlphanum || c == '-')

def validRecoveryJournal (value : RecoveryJournal) : Bool :=
  value.units.length ≤ RecoveryUnit.units.length && decide value.units.Nodup &&
    value.units.all (RecoveryUnit.units.contains ·) && validRecoveryOwner value.owner &&
    value.pointId.all validPointId

/-- What a failed command reports. -/
inductive RecoveryError where
  | host
  | corruptJournal
  | busy
  | interrupted
  | couldNotRestore (units : List RecoveryUnit)
  | activeMaintenance
  | didNotQuiesce
  | deploymentFailed (point cause : String)
  | namePointExactly
  | ownerRunning
deriving DecidableEq, Repr

instance : Fault RecoveryError := ⟨.host⟩

/-- The texts of the errors. -/
def RecoveryError.message : RecoveryError → String
  | .host => ""
  | .corruptJournal => "Corrupt recovery operation journal"
  | .busy => "RECOVERY_BUSY: previous owner is still running"
  | .interrupted => "RECOVERY_REVIEW_REQUIRED: inspect the interrupted deployment before acknowledging " ++
      "its recovery point"
  | .couldNotRestore units => "RECOVERY_REVIEW_REQUIRED: Recovery could not restore units: " ++
      ", ".intercalate (units.map RecoveryUnit.name)
  | .activeMaintenance => "Recovery waits for active backup/cleanup/export to finish"
  | .didNotQuiesce => "Recovery writers did not quiesce"
  | .deploymentFailed point cause => "RECOVERY_REVIEW_REQUIRED: recovery point " ++ point ++
      " is protected; deployment failed: " ++ cause
  | .namePointExactly => "Recovery acknowledgement must name the pending point exactly"
  | .ownerRunning => "Recovery owner is still running"

/-- The host of an update: which units are active, the journal and the verified recovery points.
`deployment` is the point of a deployment that was begun and is neither completed nor acknowledged. -/
structure RecoveryHost where
  active : RecoveryUnit → Bool
  journal : Durable (Option RecoveryJournal)
  points : List String
  deployment : Option String

namespace RecoveryHost

/-- Meanwhile jobs end, and while a timer is active jobs start. -/
def jobs (s : RecoveryHost) (running : RecoveryUnit → Bool) : RecoveryHost :=
  { s with
    active := fun unit =>
      if unit ∈ RecoveryUnit.maintenance then
        running unit && (s.active unit || RecoveryUnit.timers.any s.active)
      else s.active unit }

/-- A unit is started or stopped. -/
def setActive (s : RecoveryHost) (unit : RecoveryUnit) (state : Bool) : RecoveryHost :=
  { s with active := fun other => if other = unit then state else s.active other }

end RecoveryHost

/-- Why the journal is removed. -/
inductive JournalRemoval where
  | previous
  | finished
  | acknowledge (id : String)
deriving DecidableEq, Repr

/-- The steps of the commands. -/
inductive RecoverySite where
  | prepareState
  | readJournal
  | previousOwner
  | preflight
  | inspect (unit : RecoveryUnit)
  | currentOwner
  | writeTemporary
  | renameJournal (value : RecoveryJournal)
  | syncJournal
  | removeTemporary
  | start (unit : RecoveryUnit)
  | stop (unit : RecoveryUnit)
  | create
  | beginAction (id : String)
  | action (id : String)
  | complete (id : String)
  | unlinkJournal (removal : JournalRemoval)
  | syncRemoval
  | collect (protectedId : Option String)
deriving DecidableEq, Repr

/-- What the host answers: the jobs that run by then, the identity of a process, the units that a
deployment leaves active, the id of a new point and the points that a collection keeps. -/
structure RecoveryAnswer where
  jobs : RecoveryUnit → Bool := fun _ => false
  owner : Option RecoveryOwner := none
  deployed : RecoveryUnit → Bool := fun _ => false
  point : String := ""
  kept : List String := []

/-- A process of a command. -/
abbrev RecoveryProcess (α : Type) : Type :=
  Process RecoverySite RecoveryHost RecoveryAnswer RecoveryError α

/-- A step, up to which the jobs went on. -/
def recoveryStep {β : Type} (site : RecoverySite)
    (f : RecoveryAnswer → RecoveryHost → Except RecoveryError (β × RecoveryHost)) : RecoveryProcess β :=
  Process.act site fun answer s => f answer (s.jobs answer.jobs)

/-- A step that only reads. -/
def recoveryAsk {β : Type} (site : RecoverySite)
    (f : RecoveryAnswer → RecoveryHost → Except RecoveryError β) : RecoveryProcess β :=
  recoveryStep site fun answer s => (f answer s).map fun value => (value, s)

/-- A step that only changes the host. -/
def recoveryModify (site : RecoverySite) (f : RecoveryAnswer → RecoveryHost → RecoveryHost) :
    RecoveryProcess Unit :=
  recoveryStep site fun answer s => .ok ((), f answer s)

/-- A call that may fail and leaves the host alone. -/
def recoveryCall (site : RecoverySite) : RecoveryProcess Unit :=
  recoveryAsk site fun _ _ => .ok ()

def inspectUnit (unit : RecoveryUnit) : RecoveryProcess Bool :=
  recoveryAsk (.inspect unit) fun _ s => .ok (s.active unit)

/-- `run("start", unit)`. -/
def startUnit (unit : RecoveryUnit) : RecoveryProcess Unit :=
  recoveryModify (.start unit) fun _ s => s.setActive unit true

/-- `run("stop", unit)`. -/
def stopUnit (unit : RecoveryUnit) : RecoveryProcess Unit :=
  recoveryModify (.stop unit) fun _ s => s.setActive unit false

/-- The journal, if there is one. -/
def readRecoveryJournal : RecoveryProcess (Option RecoveryJournal) :=
  recoveryAsk .readJournal fun _ s =>
    match s.journal.visible with
    | none => .ok none
    | some value => if validRecoveryJournal value then .ok (some value) else .error .corruptJournal

/-- `store.atomic`; the temporary file has a name of its own. -/
def saveRecoveryJournal (value : RecoveryJournal) : RecoveryProcess Unit := do
  recoveryCall .writeTemporary
  recoveryModify (.renameJournal value) fun _ s => { s with journal := s.journal.put (some value) }
  recoveryModify .syncJournal fun _ s => { s with journal := s.journal.sync }
  recoveryCall .removeTemporary

/-- `rm(journalPath)` and `store.sync`. An acknowledgement settles the deployment. -/
def removeRecoveryJournal (removal : JournalRemoval) : RecoveryProcess Unit := do
  recoveryModify (.unlinkJournal removal) fun _ s =>
    { s with
      journal := s.journal.put none
      deployment := match removal with
        | .acknowledge _ => none
        | .previous | .finished => s.deployment }
  recoveryModify .syncRemoval fun _ s => { s with journal := s.journal.sync }

/-- Applications before timers. -/
def restoreOrder (original : List RecoveryUnit) : List RecoveryUnit :=
  original.filter (fun unit => !RecoveryUnit.timers.contains unit) ++
    original.filter (RecoveryUnit.timers.contains ·)

/-- `restoreUnits`: every unit is tried, also after one that cannot be started. -/
def restoreUnits (original : List RecoveryUnit) : RecoveryProcess Unit := do
  let errors ← Process.attemptEach (restoreOrder original) startUnit
  Process.require (errors = []) (.couldNotRestore errors)

def collectPoints (protectedId : Option String) : RecoveryProcess Unit :=
  recoveryModify (.collect protectedId) fun answer s =>
    { s with points := s.points.filter fun id => protectedId == some id || answer.kept.contains id }

/-- `create`: a collection and a new verified point. -/
def createPoint : RecoveryProcess String := do
  collectPoints none
  recoveryStep .create fun answer s =>
    if answer.point ∈ s.points then .error .host
    else .ok (answer.point, { s with points := answer.point :: s.points })

/-- What the next run does with the journal of an earlier one. -/
def settlePrevious : RecoveryProcess Unit := do
  match ← readRecoveryJournal with
  | none => pure ()
  | some previous => do
    let running ← recoveryAsk .previousOwner fun answer _ => .ok answer.owner
    Process.require (running ≠ some previous.owner) .busy
    restoreUnits previous.units
    Process.require (previous.pointId = none) .interrupted
    removeRecoveryJournal .previous

/-- `units.filter(inspect)`. -/
def filterActive : List RecoveryUnit → RecoveryProcess (List RecoveryUnit)
  | [] => pure []
  | unit :: rest => do
    let running ← inspectUnit unit
    let others ← filterActive rest
    pure (if running then unit :: others else others)

/-- `units.some(inspect)` raises the error. -/
def requireInactive (units : List RecoveryUnit) (error : RecoveryError) : RecoveryProcess Unit :=
  Process.each units fun unit => do
    let running ← inspectUnit unit
    Process.require (running = false) error

/-- Stop the timers, wait for no job, and stop the writers. -/
def quiesce (original : List RecoveryUnit) : RecoveryProcess Unit := do
  Process.each RecoveryUnit.timers fun unit => if unit ∈ original then stopUnit unit else pure ()
  requireInactive RecoveryUnit.maintenance .activeMaintenance
  Process.each RecoveryUnit.writers fun unit =>
    if unit ∈ original then stopUnit unit
    else do
      let running ← inspectUnit unit
      if running then stopUnit unit else pure ()
  requireInactive RecoveryUnit.writers .didNotQuiesce

/-- The journal names the point, and the deployment runs until `completed` is set. -/
def deployPoint (journal : RecoveryJournal) (id : String) : RecoveryProcess Unit := do
  saveRecoveryJournal { journal with pointId := some id }
  Process.mark (.beginAction id) fun s => { s with deployment := some id }
  recoveryModify (.action id) fun answer s => { s with active := answer.deployed }
  Process.mark (.complete id) fun s => { s with deployment := none }

/-- The `finally` block. -/
def restoreQuiesced (original : List RecoveryUnit) (point : Option String) (completed : Bool) :
    RecoveryProcess Unit := do
  restoreUnits original
  if completed || point.isNone then do
    removeRecoveryJournal .finished
    (if completed && point.isSome then do
      let _ ← Process.attempt (collectPoints point)
    else pure ())
  else pure ()

/-- The `catch` and `finally` blocks once there is a point. -/
def finishDeployment (journal : RecoveryJournal) (id : String) :
    Except RecoveryError Unit → RecoveryProcess Unit
  | .error error => do
    restoreQuiesced journal.units (some id) false
    throw (.deploymentFailed id error.message)
  | .ok () => restoreQuiesced journal.units (some id) true

/-- The `try` block from the point on, or the `catch` and `finally` blocks without one. -/
def finishPreparation (journal : RecoveryJournal) : Except RecoveryError String → RecoveryProcess Unit
  | .error error => do
    restoreQuiesced journal.units none false
    throw error
  | .ok id => do
    let outcome ← Process.outcome (deployPoint journal id)
    finishDeployment journal id outcome

/-- The `try` block with its `catch` and `finally` blocks. -/
def deployQuiesced (journal : RecoveryJournal) : RecoveryProcess Unit := do
  let outcome ← Process.outcome (do quiesce journal.units; createPoint)
  finishPreparation journal outcome

def withQuiescedRecovery (preflight : Bool) : RecoveryProcess Unit := do
  recoveryCall .prepareState
  settlePrevious
  (if preflight then recoveryCall .preflight else pure ())
  let original ← filterActive RecoveryUnit.units
  let owner ← recoveryAsk .currentOwner fun answer _ => answer.owner.elim (.error .host) .ok
  let journal : RecoveryJournal := ⟨owner, original, none⟩
  saveRecoveryJournal journal
  deployQuiesced journal

/-- `update-recovery-host.mjs acknowledge`. -/
def acknowledgePoint (id : String) : RecoveryProcess Unit := do
  recoveryCall .prepareState
  match ← readRecoveryJournal with
  | none => throw .namePointExactly
  | some pending => do
    Process.require (pending.pointId = some id) .namePointExactly
    let alive ← recoveryAsk .previousOwner fun answer _ => .ok answer.owner
    Process.require (alive ≠ some pending.owner) .ownerRunning
    restoreUnits pending.units
    removeRecoveryJournal (.acknowledge id)

/-- `update-recovery-host.mjs gc`. -/
def collectRecovery : RecoveryProcess Unit := do
  recoveryCall .prepareState
  match ← readRecoveryJournal with
  | none => collectPoints none
  | some _ => pure ()

/-- The commands. -/
inductive RecoveryCommand where
  | withQuiescedRecovery (preflight : Bool)
  | acknowledge (id : String)
  | gc
deriving DecidableEq, Repr

/-- The process of a command. -/
def RecoveryCommand.process : RecoveryCommand → RecoveryProcess Unit
  | .withQuiescedRecovery preflight => LatexRenderer.withQuiescedRecovery preflight
  | .acknowledge id => acknowledgePoint id
  | .gc => collectRecovery

/-- Between the commands units come and go, and a power loss may take the last change of the journal
back. -/
inductive RecoveryDrift where
  | units (active : RecoveryUnit → Bool)
  | powerLoss (taken : Bool)

/-- What happens between the commands. -/
def RecoveryDrift.apply : RecoveryDrift → RecoveryHost → RecoveryHost
  | .units active, s => { s with active := active }
  | .powerLoss taken, s => { s with journal := s.journal.lose taken }

/-- The host starts without a journal. -/
def recoveryService : Service RecoveryCommand RecoverySite RecoveryHost RecoveryAnswer RecoveryError Unit
    RecoveryDrift where
  Init s := s.journal = .settled none ∧ s.deployment = none
  program command := command.process
  drift change s := some (change.apply s)

end LatexRenderer
