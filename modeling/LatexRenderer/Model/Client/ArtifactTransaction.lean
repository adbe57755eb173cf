import Mathlib.Algebra.Order.Ring.Nat
import LatexRenderer.Machine.Faults

/-! # Publishing an artifact set

`publishArtifactSet` builds a complete set of artifacts in a private directory and exchanges it with the output
directory by two renames. A journal that is written before them tells the next call, after a process that was
killed, which directory is which; a commit marker tells that the exchange is final. `recover` brings every
such state back to one complete set. The transaction lives in a state directory beside the output; what is left
of finished transactions is renamed to garbage in it and removed.
-/

namespace LatexRenderer.ArtifactPublication

open Machine

def maxArtifactEntries : Nat := 10000

def maxArtifactBytes : Nat := 1073741824

/-- `Stats`, as far as a tree records them; `identity` is the inode number. -/
structure ArtifactStat where
  identity : Nat
  size : Nat
  mtime : Nat
  ctime : Nat
deriving DecidableEq, Repr

/-- What `lstat` finds at a path: a directory or a file that the output checks accept, something they refuse, or
something on another file system. -/
inductive ArtifactKind where
  | directory
  | file
  | foreign
  | mounted
deriving DecidableEq, Repr

/-- A path in a directory. -/
structure ArtifactEntry where
  name : String
  stat : ArtifactStat
  kind : ArtifactKind
  content : List UInt8 := []
deriving DecidableEq, Repr

/-- A directory with everything below it, in the order in which `tree` walks it. -/
structure ArtifactDirectory where
  stat : ArtifactStat
  kind : ArtifactKind := .directory
  entries : List ArtifactEntry
deriving DecidableEq, Repr

/-- The errors of a publication. -/
inductive ArtifactError where
  | fileSystem
  | unsafeTransaction (message : String)
  | unsafeDirectory
  | unsafePath
  | outputBusy
  | build
deriving DecidableEq, Repr

instance : Fault ArtifactError := ⟨.fileSystem⟩

/-- What a tree records of a path. -/
structure ArtifactTreeItem where
  name : String
  stat : ArtifactStat
  directory : Bool
deriving DecidableEq, Repr

def ArtifactEntry.item (entry : ArtifactEntry) : ArtifactTreeItem :=
  ⟨entry.name, entry.stat, entry.kind == .directory⟩

/-- The bytes that a tree counts for a path. -/
def ArtifactEntry.bytes (entry : ArtifactEntry) : Nat := if entry.kind = .directory then 0 else entry.stat.size

/-- `walk`, with what it has counted so far. -/
def walkArtifacts (entryLimit byteLimit : Nat) :
    List ArtifactEntry → Nat → Nat → Except ArtifactError (List ArtifactTreeItem)
  | [], _, _ => .ok []
  | entry :: rest, count, bytes =>
    if entry.kind = .mounted then
      .error (.unsafeTransaction "Artifact output must not cross a filesystem mount")
    else if entry.kind = .foreign then .error .unsafePath
    else if entryLimit < count + 1 then
      .error (.unsafeTransaction "Artifact output contains too many entries (maximum 10000)")
    else if byteLimit < bytes + entry.bytes then
      .error (.unsafeTransaction "Artifact output exceeds the 1 GiB transaction limit")
    else (walkArtifacts entryLimit byteLimit rest (count + 1) (bytes + entry.bytes)).map (entry.item :: ·)

/-- The paths of a directory, itself first. -/
def ArtifactDirectory.paths (directory : ArtifactDirectory) (name : String) : List ArtifactEntry :=
  ⟨name, directory.stat, directory.kind, []⟩ :: directory.entries

/-- `tree` of an output or a stage. -/
def ArtifactDirectory.tree (directory : ArtifactDirectory) : Except ArtifactError (List ArtifactTreeItem) :=
  walkArtifacts maxArtifactEntries maxArtifactBytes (directory.paths "") 0 0

/-- `tree` of what is about to be removed. -/
def cleanupTree (paths : List ArtifactEntry) : Except ArtifactError (List ArtifactTreeItem) :=
  walkArtifacts (2 * maxArtifactEntries + 16) (2 * maxArtifactBytes + 65536) paths 0 0

/-- What a record of a transaction says: a `Journal` of format 1, or the commit marker. -/
inductive ArtifactRecord where
  | journal (output : String) (previous : Option Nat) (next : Nat)
  | committed (next : Nat)
deriving DecidableEq, Repr

/-- A record and its `.part`; `none` inside is a file that is not completely written. -/
structure RecordFile where
  part : Option (Option ArtifactRecord) := none
  entry : Option (Option ArtifactRecord) := none
deriving DecidableEq, Repr

/-- The two records. -/
inductive RecordName where
  | journal
  | committed
deriving DecidableEq, Repr

/-- The directory `transaction`; `others` are names in it that the client does not know. -/
structure ArtifactTransaction where
  kind : ArtifactKind := .directory
  stage : Option ArtifactDirectory := none
  backup : Option ArtifactDirectory := none
  journal : RecordFile := {}
  committed : RecordFile := {}
  others : List ArtifactEntry := []
deriving DecidableEq, Repr

/-- Where a set is published: the output path and the size of the text of a record. The records about this
output fit the limit of `readRecord`. -/
structure ArtifactPlace where
  output : String
  recordSize : Option ArtifactRecord → Nat
  marker_fits : ∀ next, recordSize (some (.committed next)) ≤ 16384
  journal_fits : ∀ previous next, recordSize (some (.journal output previous next)) ≤ 16384
  incomplete_fits : recordSize none ≤ 16384

/-- The output directory and the state directory beside it. -/
structure ArtifactDisk where
  output : Option ArtifactDirectory
  transaction : Option ArtifactTransaction := none
  garbage : List (List ArtifactEntry) := []
deriving DecidableEq, Repr

/-- What the file system chooses: the `Stats` of something new, and whether the parent still has its real path. -/
structure ArtifactAnswer where
  stat : ArtifactStat := ⟨0, 0, 0, 0⟩
  sameParent : Bool := true
deriving DecidableEq, Repr

/-- The steps at which a publication may stop. -/
inductive ArtifactSite where
  | inspect
  | walk
  | unlink
  | makeTransaction
  | makeStage
  | createPart (name : RecordName)
  | writePart (name : RecordName)
  | renamePart (name : RecordName)
  | sync
  | copy
  | build
  | moveToBackup
  | moveToOutput
  | discard
  | removeMarker
  | moveBack
  | restore
deriving DecidableEq, Repr

/-- A program over the disk. -/
abbrev ArtifactProcess := Process ArtifactSite ArtifactDisk ArtifactAnswer ArtifactError

/-- The identities in use. -/
def ArtifactDisk.identities (disk : ArtifactDisk) : List Nat :=
  let directory (found : Option ArtifactDirectory) : List Nat :=
    (found.toList.flatMap fun d => d.paths "").map fun entry => entry.stat.identity
  directory disk.output ++ (disk.transaction.toList.flatMap fun transaction =>
    directory transaction.stage ++ directory transaction.backup)

/-- The identity of something new: what the file system proposes, unless it is in use. -/
def ArtifactDisk.fresh (disk : ArtifactDisk) (proposed : Nat) : Nat :=
  if proposed ∈ disk.identities then disk.identities.sum + 1 else proposed

/-- A step that changes the disk. -/
def changeDisk (site : ArtifactSite) (change : ArtifactAnswer → ArtifactDisk → Except ArtifactError ArtifactDisk) :
    ArtifactProcess Unit :=
  Process.act site fun answer disk => (change answer disk).map fun after => ((), after)

/-- A look at the disk. -/
def inspectDisk {α : Type} (read : ArtifactDisk → α) : ArtifactProcess α :=
  Process.ask .inspect fun _ disk => .ok (read disk)

/-- `sync` of a directory: its entries are as they are. -/
def syncDisk : ArtifactProcess Unit := Process.modify .sync id

/-- A step inside the directory `transaction`. -/
def ArtifactDisk.within (disk : ArtifactDisk) (step : ArtifactTransaction → Except ArtifactError ArtifactDisk) :
    Except ArtifactError ArtifactDisk :=
  disk.transaction.elim (.error .fileSystem) step

/-- The files of a record. -/
def RecordFile.paths (place : ArtifactPlace) (file : RecordFile) (name : String) : List ArtifactEntry :=
  let written (name : String) (content : Option ArtifactRecord) : ArtifactEntry :=
    ⟨name, ⟨0, place.recordSize content, 0, 0⟩, .file, []⟩
  (file.entry.toList.map (written name)) ++ file.part.toList.map (written (name ++ ".part"))

/-- The paths of a transaction, itself first. -/
def ArtifactTransaction.paths (place : ArtifactPlace) (transaction : ArtifactTransaction) : List ArtifactEntry :=
  ⟨"", ⟨0, 0, 0, 0⟩, transaction.kind, []⟩ ::
    ((transaction.stage.toList.flatMap fun stage => stage.paths "stage") ++
      (transaction.backup.toList.flatMap fun backup => backup.paths "backup") ++
      transaction.journal.paths place "journal.json" ++ transaction.committed.paths place "committed.json" ++
      transaction.others)

/-- Unlink the last path of the first garbage directory; the directory itself goes last. -/
def unlinkGarbage (disk : ArtifactDisk) : Except ArtifactError ArtifactDisk :=
  match disk.garbage with
  | [] => .error .fileSystem
  | paths :: rest =>
    .ok { disk with garbage := if paths.dropLast = [] then rest else paths.dropLast :: rest }

/-- `removeTree` of the first garbage directory. -/
def removeTree : ArtifactProcess Unit := do
  let tree ← Process.ask .walk fun _ disk => cleanupTree (disk.garbage.headD [])
  Process.each tree fun _ => changeDisk .unlink fun _ => unlinkGarbage

def discardTransaction (place : ArtifactPlace) : ArtifactProcess Unit := do
  changeDisk .discard fun _ disk => disk.within fun transaction =>
    .ok { disk with
      transaction := none
      garbage := transaction.paths place :: disk.garbage }
  syncDisk
  removeTree

/-- The first loop of `recover`. -/
def collectGarbage : ArtifactProcess Unit := do
  let names ← inspectDisk fun disk => disk.garbage
  Process.each names fun _ => removeTree

def readRecord (place : ArtifactPlace) (content : Option ArtifactRecord) : Except ArtifactError ArtifactRecord :=
  if 16384 < place.recordSize content then
    .error (.unsafeTransaction "Artifact transaction record is too large")
  else content.elim
    (.error (.unsafeTransaction "Artifact transaction record is corrupt; previous output was preserved")) .ok

/-- The journal, as far as `recover` accepts it: the identities of the previous and of the next directory. -/
def acceptJournal (place : ArtifactPlace) : ArtifactRecord → Except ArtifactError (Option Nat × Nat)
  | .journal output previous next =>
    if output = place.output ∧ some next ≠ previous then .ok (previous, next)
    else .error (.unsafeTransaction "Artifact recovery journal is invalid; previous output was preserved")
  | .committed _ =>
    .error (.unsafeTransaction "Artifact recovery journal is invalid; previous output was preserved")

/-- `assertOutputDirectory`, and the check of the file system. -/
def assertOutputDirectory (mounted : String) (kind : ArtifactKind) : Except ArtifactError Unit :=
  if kind = .mounted then .error (.unsafeTransaction mounted)
  else if kind = .directory then .ok ()
  else .error .unsafeDirectory

/-- The identity of a directory, if it is there. -/
def directoryIdentity (directory : Option ArtifactDirectory) : Option Nat := directory.map fun d => d.stat.identity

/-- The three directories that a transaction may have are directories of this file system, and the two inside
it are those that the journal names. -/
def assertDirectories (previous : Option Nat) (next : Nat) (current saved staged : Option ArtifactDirectory) :
    Except ArtifactError Unit := do
  (current.toList ++ saved.toList ++ staged.toList).forM fun directory =>
    assertOutputDirectory "Artifact recovery must not cross a filesystem mount" directory.kind
  if saved ≠ none ∧ directoryIdentity saved ≠ previous then
    throw (.unsafeTransaction "Previous artifact directory has changed")
  if staged ≠ none ∧ directoryIdentity staged ≠ some next then
    throw (.unsafeTransaction "Staged artifact directory has changed")

/-- `rename(output, stage)`. -/
def moveBack (disk : ArtifactDisk) : Except ArtifactError ArtifactDisk :=
  disk.within fun transaction =>
    if disk.output = none ∨ transaction.stage ≠ none then .error .fileSystem
    else .ok { disk with
      output := none
      transaction := some { transaction with stage := disk.output } }

/-- `rename(backup, output)`. -/
def restoreBackup (disk : ArtifactDisk) : Except ArtifactError ArtifactDisk :=
  disk.within fun transaction =>
    if transaction.backup = none ∨ disk.output ≠ none then .error .fileSystem
    else .ok { disk with
      output := transaction.backup
      transaction := some { transaction with backup := none } }

/-- When the new directory is already at the output, it goes back to the stage. -/
def undoExchange (journal : Option Nat × Nat) (transaction : ArtifactTransaction)
    (current : Option ArtifactDirectory) : ArtifactProcess Unit :=
  if directoryIdentity current = some journal.2 then do
    Process.require (transaction.stage = none ∧ (journal.1 ≠ none → transaction.backup ≠ none))
      (.unsafeTransaction "Previous artifact directory is missing")
    changeDisk .moveBack fun _ => moveBack
    syncDisk
  else
    Process.require (current = none ∨ (directoryIdentity current = journal.1 ∧ transaction.backup = none))
      (.unsafeTransaction "Output directory changed during recovery; nothing was overwritten")

/-- When the previous directory is not at the output, it comes back from the backup. -/
def restorePrevious (journal : Option Nat × Nat) (transaction : ArtifactTransaction) : ArtifactProcess Unit := do
  let current ← inspectDisk fun disk => disk.output
  if journal.1 ≠ none ∧ current = none then do
    Process.require (transaction.backup ≠ none)
      (.unsafeTransaction "Previous artifact directory is missing")
    changeDisk .restore fun _ => restoreBackup
    syncDisk
  else pure ()

/-- What `recover` does with a transaction that has a journal. -/
def recoverJournaled (place : ArtifactPlace) (transaction : ArtifactTransaction)
    (content : Option ArtifactRecord) : ArtifactProcess Unit := do
  let journal ← Process.ofExcept (readRecord place content >>= acceptJournal place)
  let current ← inspectDisk fun disk => disk.output
  Process.ofExcept (assertDirectories journal.1 journal.2 current transaction.backup transaction.stage)
  if transaction.committed.entry ≠ none then do
    let committed ← Process.ofExcept (readRecord place (transaction.committed.entry.getD none))
    Process.require (committed = .committed journal.2 ∧ directoryIdentity current = some journal.2 ∧
      transaction.stage = none) (.unsafeTransaction "Committed artifact directory has changed")
    discardTransaction place
  else do
    undoExchange journal transaction current
    restorePrevious journal transaction
    discardTransaction place

/-- What `recover` does with a transaction. -/
def recoverTransaction (place : ArtifactPlace) (transaction : ArtifactTransaction) : ArtifactProcess Unit := do
  Process.ofExcept (assertOutputDirectory "Artifact transaction is on another filesystem" transaction.kind)
  Process.require (transaction.others = [])
    (.unsafeTransaction "Unrecognized artifact recovery record; nothing was deleted")
  transaction.journal.entry.elim
    (do
      Process.require (transaction.backup = none ∧ transaction.committed = {})
        (.unsafeTransaction "Artifact recovery journal is missing; previous output was preserved")
      discardTransaction place)
    (recoverJournaled place transaction)

def recover (place : ArtifactPlace) : ArtifactProcess Unit := do
  collectGarbage
  let transaction ← inspectDisk fun disk => disk.transaction
  transaction.elim (pure ()) (recoverTransaction place)

/-- The record of a name. -/
def ArtifactTransaction.record (transaction : ArtifactTransaction) : RecordName → RecordFile
  | .journal => transaction.journal
  | .committed => transaction.committed

def ArtifactTransaction.setRecord (transaction : ArtifactTransaction) (file : RecordFile) :
    RecordName → ArtifactTransaction
  | .journal => { transaction with journal := file }
  | .committed => { transaction with committed := file }

def writeRecord (name : RecordName) (value : ArtifactRecord) : ArtifactProcess Unit := do
  changeDisk (.createPart name) fun _ disk => disk.within fun transaction =>
    if (transaction.record name).part ≠ none then .error .fileSystem
    else .ok { disk with
      transaction := some (transaction.setRecord { transaction.record name with part := some none } name) }
  changeDisk (.writePart name) fun _ disk => disk.within fun transaction =>
    .ok { disk with
      transaction := some (transaction.setRecord { transaction.record name with part := some (some value) } name) }
  changeDisk (.renamePart name) fun _ disk => disk.within fun transaction =>
    .ok { disk with transaction := some (transaction.setRecord { entry := (transaction.record name).part } name) }
  syncDisk

/-- What happens while a set is built: the build leaves these paths in the stage, or the user edits the output
directory. -/
inductive BuildStep where
  | write (entries : List ArtifactEntry)
  | edit (stat : ArtifactStat) (entries : List ArtifactEntry)
deriving DecidableEq, Repr

/-- What the cleanup of a stage can take: no more than twice what a set may have. -/
def Stageable (entries : List ArtifactEntry) : Prop :=
  (∀ entry ∈ entries, entry.kind = .directory ∨ entry.kind = .file) ∧
    entries.length < 2 * maxArtifactEntries ∧ (entries.map ArtifactEntry.bytes).sum ≤ 2 * maxArtifactBytes

/-- The argument `build` of a call: what it does, and how it ends. It stages directories and regular files, at
most as much again as the output may have. -/
structure ArtifactBuild (T : Type) where
  steps : List BuildStep
  outcome : Option T
  staged : ∀ entries, .write entries ∈ steps → Stageable entries

/-- The user's edit of a directory: it stays the same directory. -/
def ArtifactDirectory.edited (directory : ArtifactDirectory) (stat : ArtifactStat) (entries : List ArtifactEntry) :
    ArtifactDirectory :=
  { directory with
    stat := { stat with identity := directory.stat.identity }
    entries := entries }

/-- One step of a build. -/
def BuildStep.take (disk : ArtifactDisk) : BuildStep → Except ArtifactError ArtifactDisk
  | .write entries => disk.within fun transaction =>
    .ok { disk with
      transaction := some { transaction with
        stage := transaction.stage.map fun stage => { stage with entries := entries } } }
  | .edit stat entries =>
    .ok { disk with output := disk.output.map fun output => output.edited stat entries }

/-- Copy a path of the output to the stage. -/
def copyEntry (entry : ArtifactEntry) : ArtifactProcess Unit :=
  changeDisk .copy fun answer disk => disk.within fun transaction =>
    transaction.stage.elim (.error .fileSystem) fun stage =>
      .ok { disk with
        transaction := some { transaction with
          stage := some { stage with
            entries := stage.entries ++
              [{ entry with
                stat := { answer.stat with
                  identity := disk.fresh answer.stat.identity
                  size := entry.stat.size } }] } } }

/-- `rename(output, backup)`. -/
def moveToBackup (disk : ArtifactDisk) : Except ArtifactError ArtifactDisk :=
  disk.within fun transaction =>
    if disk.output = none ∨ transaction.backup ≠ none then .error .fileSystem
    else .ok { disk with
      output := none
      transaction := some { transaction with backup := disk.output } }

/-- `rename(stage, output)`. -/
def moveToOutput (disk : ArtifactDisk) : Except ArtifactError ArtifactDisk :=
  disk.within fun transaction =>
    if transaction.stage = none ∨ disk.output ≠ none then .error .fileSystem
    else .ok { disk with
      output := transaction.stage
      transaction := some { transaction with stage := none } }

/-- `tree` of a directory that may be missing. -/
def optionalTree (directory : Option ArtifactDirectory) : Except ArtifactError (Option (List ArtifactTreeItem)) :=
  directory.elim (.ok none) fun found => found.tree.map some

/-- `mkdir(transaction)`. -/
def makeTransaction (disk : ArtifactDisk) : Except ArtifactError ArtifactDisk :=
  if disk.transaction ≠ none then .error .fileSystem else .ok { disk with transaction := some {} }

/-- `mkdir(stage)`. -/
def makeStage (answer : ArtifactAnswer) (disk : ArtifactDisk) : Except ArtifactError ArtifactDisk :=
  disk.within fun transaction =>
    if transaction.stage ≠ none then .error .fileSystem
    else .ok { disk with
      transaction := some { transaction with
        stage := some ⟨{ answer.stat with identity := disk.fresh answer.stat.identity }, .directory, []⟩ } }

/-- The identity of a directory that has to be there. -/
def identity (directory : Option ArtifactDirectory) : Except ArtifactError Nat :=
  directory.elim (.error .fileSystem) fun found => .ok found.stat.identity

/-- The journal of a call: its output, the identity of the directory there, and that of the stage. -/
def inspectJournal (existing : Option ArtifactDirectory) : ArtifactProcess (Option Nat × Nat) :=
  Process.ask .inspect fun _ disk => do
    let previous ← if existing = none then pure none else (identity disk.output).map some
    let next ← identity (disk.transaction.bind fun transaction => transaction.stage)
    pure (previous, next)

/-- The exchange of the two directories. -/
def exchange (existing : Option ArtifactDirectory) : ArtifactProcess Unit := do
  (if existing ≠ none then changeDisk .moveToBackup fun _ => moveToBackup else pure ())
  syncDisk
  syncDisk
  changeDisk .moveToOutput fun _ => moveToOutput
  syncDisk
  syncDisk

/-- What a call does once the directory `transaction` is there, up to the commit marker. -/
def stageAndCommit {T : Type} (place : ArtifactPlace) (build : ArtifactBuild T)
    (existing : Option ArtifactDirectory) (original : Option (List ArtifactTreeItem)) : ArtifactProcess T := do
  changeDisk .makeStage makeStage
  let journal ← inspectJournal existing
  writeRecord .journal (.journal place.output journal.1 journal.2)
  syncDisk
  Process.each (existing.toList.flatMap fun output => output.entries) copyEntry
  Process.each build.steps fun step => changeDisk .build fun _ disk => step.take disk
  let result ← Process.ofExcept (build.outcome.elim (.error .build) .ok)
  let _ ← Process.ask .walk fun _ disk =>
    optionalTree (disk.transaction.bind fun transaction => transaction.stage)
  let sameParent ← Process.ask .inspect fun answer _ => .ok answer.sameParent
  Process.require (sameParent = true) (.unsafeTransaction "Artifact output parent has changed")
  let current ← Process.ask .walk fun _ disk => optionalTree disk.output
  Process.require (original = current)
    (.unsafeTransaction "Artifact output was edited during download; previous output was preserved")
  exchange existing
  writeRecord .committed (.committed journal.2)
  pure result

/-- `rm(committed.json, { force: true })`. -/
def removeMarker (disk : ArtifactDisk) : ArtifactDisk :=
  { disk with
    transaction := disk.transaction.map fun transaction =>
      { transaction with committed := { transaction.committed with entry := none } } }

def publishArtifactSet {T : Type} (place : ArtifactPlace) (build : ArtifactBuild T) : ArtifactProcess T := do
  recover place
  let existing ← inspectDisk fun disk => disk.output
  let original ← Process.ofExcept (optionalTree existing)
  changeDisk .makeTransaction fun _ => makeTransaction
  let result ← tryCatch (stageAndCommit place build existing original) fun error => do
    Process.modify .removeMarker removeMarker
    recover place
    throw error
  let _ ← Process.attempt (discardTransaction place)
  pure result

end LatexRenderer.ArtifactPublication
