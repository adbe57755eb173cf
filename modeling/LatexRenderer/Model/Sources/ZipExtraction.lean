import LatexRenderer.Machine.Octets
import LatexRenderer.Machine.Process
import LatexRenderer.Model.Maps
import LatexRenderer.Model.Sources.ZipPaths

/-! # Extracting a source archive

`validateAndExtract` as a process over the file system below its destination and over the handles that it holds. Every
call of the file system or of the reader of archives is one step, which fails or takes effect; the state notes which steps
failed. The entries of the archive are what its reader gives one after another, and what is read from the archive and
from the streams of its entries is what the environment answers.
-/

namespace LatexRenderer

open Machine
open Machine.Process

/-- The calls of an extraction. -/
inductive ExtractSite where
  | mkdirDestination
  | chmodDestination
  | realpathDestination
  | openZip
  | openZipHandle
  | nextEntry
  | readHeader
  | readName
  | mkdirParent
  | chmodParent
  | realpathParent
  | openEntry
  | openTarget
  | chmodTarget
  | pipeline
  | rm
  | closeZip
  | closeZipHandle
deriving DecidableEq, Repr

/-- An entry of the central directory. -/
structure ZipEntry where
  fileName : Text
  generalPurposeBitFlag : Nat
  compressionMethod : Nat
  compressedSize : Nat
  uncompressedSize : Nat
  externalFileAttributes : Nat
deriving DecidableEq, Repr

/-- What the environment answers: octets of the archive, the chunks of an entry's stream, a real path. -/
structure ExtractAnswer where
  octets : Octets
  chunks : List Octets
  path : List String
deriving DecidableEq, Repr

/-- Below the destination there are directories and files; the reader of the archive is open, and closes its file when all
streams of entries have ended; the archive is open once more, and so are files that are written. -/
structure ExtractState where
  destination : Bool
  directories : List (List String)
  files : List (List String × Octets)
  zipOpen : Bool
  streams : Nat
  zipHandle : Bool
  outputs : Nat
  refused : List ExtractSite
deriving DecidableEq, Repr

namespace ExtractState

/-- Before a call nothing is open. -/
def start (destination : Bool) (directories : List (List String)) (files : List (List String × Octets)) : ExtractState where
  destination := destination
  directories := directories
  files := files
  zipOpen := false
  streams := 0
  zipHandle := false
  outputs := 0
  refused := []

/-- A step failed. -/
def refuse (site : ExtractSite) (s : ExtractState) : ExtractState := { s with refused := site :: s.refused }

/-- `mkdir` with `recursive`. -/
def mkdir (path : List String) (s : ExtractState) : ExtractState := { s with directories := s.directories ++ path.inits }

/-- `open` with `O_CREAT`. -/
def create (path : List String) (s : ExtractState) : ExtractState :=
  { s with files := s.files ++ [(path, [])], outputs := s.outputs + 1 }

/-- The end of a pipeline, which closes the stream of the entry and the file. -/
def finish (s : ExtractState) : ExtractState := { s with streams := s.streams - 1, outputs := s.outputs - 1 }

/-- What a pipeline writes. -/
def write (path : List String) (content : Octets) (s : ExtractState) : ExtractState :=
  { s with files := s.files.map fun file => if file.1 = path then (path, content) else file }

/-- `rm` of the destination. -/
def rm (s : ExtractState) : ExtractState := { s with destination := false, directories := [], files := [] }

end ExtractState

/-- An extraction. -/
abbrev Extraction : Type → Type := Process ExtractSite ExtractState ExtractAnswer ZipError

/-- A call that reads. -/
def readCall {β : Type} (site : ExtractSite) (error : ZipError) (f : ExtractAnswer → β) : Extraction β :=
  call site error (ExtractState.refuse site) fun answer s => some (f answer, s)

/-- A call that changes the file system or opens or closes something, where it is possible. -/
def changeCall (site : ExtractSite) (error : ZipError) (possible : ExtractState → Bool)
    (change : ExtractState → ExtractState) : Extraction Unit :=
  call site error (ExtractState.refuse site) fun _ s => if possible s then some ((), change s) else none

/-- A call of `validateAndExtract`: `root` is the real path of the destination, `nfc` and `toLowerCase` are those of the
runtime. -/
structure ExtractRequest where
  limits : ZipLimits
  requestedEntrypoint : Text
  root : List String
  nfc : Text → Text
  toLowerCase : Text → Text

/-- `.normalize("NFC").toLowerCase()`. -/
def ExtractRequest.fold (request : ExtractRequest) (text : Text) : Text := request.toLowerCase (request.nfc text)

structure ExtractResult where
  files : Nat
  bytes : Nat
  paths : List Text
deriving DecidableEq, Repr

/-- The variables of the loop over the entries. -/
structure Extracted where
  seen : List Text
  canonicalNames : List (Text × Text)
  paths : List Text
  entries : Nat
  files : Nat
  bytes : Nat
  entrypointFound : Bool
  texFound : Bool
deriving DecidableEq, Repr

/-- Before the loop. -/
def Extracted.start : Extracted where
  seen := []
  canonicalNames := []
  paths := []
  entries := 0
  files := 0
  bytes := 0
  entrypointFound := false
  texFound := false

section Header

def readUInt16LE (data : Octets) (offset : Nat) : Nat := littleEndian (slice data offset (offset + 2))

def readUInt32LE (data : Octets) (offset : Nat) : Nat := littleEndian (slice data offset (offset + 4))

/-- `Buffer.from(…, "utf8")`. -/
def utf8Octets (text : Text) : Octets := text.flatMap String.utf8EncodeChar

def assertLocalHeader (entry : ZipEntry) : Extraction Unit := do
  let fixed ← readCall .readHeader .io fun answer => answer.octets.take 30
  require (fixed.length = 30 ∧ readUInt32LE fixed 0 = 0x04034b50) .localHeader
  let flags := readUInt16LE fixed 6
  let method := readUInt16LE fixed 8
  let nameLength := readUInt16LE fixed 26
  let extraLength := readUInt16LE fixed 28
  require (flags = entry.generalPurposeBitFlag ∧ method = entry.compressionMethod ∧ nameLength ≤ 4096 ∧
    extraLength ≤ 65535) .headerMismatch
  let localName ← readCall .readName .io fun answer => answer.octets.take nameLength
  require (localName.length = nameLength ∧ (flags &&& 0x800 ≠ 0 ∨ localName.all (fun value => decide (value.toNat ≤ 0x7f)) = true) ∧
    localName = utf8Octets entry.fileName) .headerNames
  require (flags &&& 0x8 ≠ 0 ∨ readUInt32LE fixed 18 = entry.compressedSize ∧
    readUInt32LE fixed 22 = entry.uncompressedSize) .headerSizes

end Header

section Names

/-- A name with a slash at its end is that of a directory. -/
def namesDirectory (normalized : Text) : Bool := decide (normalized.getLast? = some '/')

/-- The paths to the components of a name, in its own spelling. -/
def componentPaths (normalized : Text) : List Text := (entryParts normalized).inits.tail.map (joinText '/')

/-- The loop over the components: a path keeps the spelling that it has first. -/
def recordNames (fold : Text → Text) : List Text → List (Text × Text) → Except ZipError (List (Text × Text))
  | [], canonicalNames => .ok canonicalNames
  | original :: rest, canonicalNames => do
    let prior := mapGet? (fold original) canonicalNames
    demand (prior = none ∨ prior = some original) .duplicatePath
    recordNames fold rest (mapSet (fold original) original canonicalNames)

def assertEntryType (entry : ZipEntry) (normalized : Text) : Except ZipError Unit := do
  demand (entry.generalPurposeBitFlag &&& 0x1 = 0) .encrypted
  let mode := (entry.externalFileAttributes >>> 16) &&& 0xffff
  let type := mode &&& 0o170000
  let directory := namesDirectory normalized
  demand (type = 0 ∨ directory = true ∧ type = 0o040000 ∨ directory = false ∧ type = 0o100000) .specialFile

end Names

section Files

/-- The path is a directory below another one, as texts tell it. -/
def startsBelow (root path : List String) : Bool := decide (root ≠ [] ∧ root <+: path ∧ root ≠ path)

/-- The transform of the chunks: the octets of this file and of all files so far. -/
def meter (limits : ZipLimits) : List Octets → Nat → Nat → Option (Nat × Nat)
  | [], fileBytes, bytes => some (fileBytes, bytes)
  | chunk :: rest, fileBytes, bytes =>
    if limits.maxFileBytes < fileBytes + chunk.length ∨ limits.maxExtractedBytes < bytes + chunk.length then none
    else meter limits rest (fileBytes + chunk.length) (bytes + chunk.length)

/-- `pipeline`: whether it succeeds or not, the stream of the entry and the file are closed after it. -/
def pipeline (limits : ZipLimits) (target : List String) (bytes : Nat) : Extraction (Option (Nat × Nat)) :=
  call .pipeline .io (fun s => s.finish.refuse .pipeline) fun answer s =>
    match meter limits answer.chunks 0 bytes with
    | none => some (none, s.finish)
    | some counted => some (some counted, (s.write target answer.chunks.flatten).finish)

/-- The part of the loop that is for files. -/
def extractFile (request : ExtractRequest) (entrypoint : Option Text) (entry : ZipEntry) (normalized : Text)
    (x : Extracted) : Extraction Extracted := do
  let files := x.files + 1
  require (files ≤ request.limits.maxFiles) .tooManyFiles
  require (entry.uncompressedSize ≤ request.limits.maxFileBytes) .fileTooLarge
  require (¬ (0 < entry.uncompressedSize ∧ 0 < entry.compressedSize ∧
    10000 * entry.compressedSize < entry.uncompressedSize)) .suspiciousRatio
  let extension := request.toLowerCase (extname normalized)
  require (allowedExtensions.contains extension = true) (.extension extension)
  let target := resolvePath request.root (pathSegments normalized)
  require (startsBelow request.root target = true) .slip
  changeCall .mkdirParent .io (fun s => target.dropLast.inits.all fun path => !(s.files.map Prod.fst).contains path)
    (·.mkdir target.dropLast)
  changeCall .chmodParent .io (fun _ => true) id
  let parent ← readCall .realpathParent .io ExtractAnswer.path
  require (parent = request.root ∨ startsBelow request.root parent = true) .symlinkEscape
  changeCall .openEntry .unreadableEntry (fun _ => true) fun s => { s with streams := s.streams + 1 }
  changeCall .openTarget .io (fun s => !(s.files.map Prod.fst).contains target && !s.directories.contains target)
    (·.create target)
  changeCall .chmodTarget .io (fun _ => true) id
  let metered ← pipeline request.limits target x.bytes
  let counted ← Process.ofExcept (obtain? metered .bomb)
  require (counted.1 = entry.uncompressedSize) .sizeMismatch
  pure { x with
    files
    bytes := counted.2
    paths := x.paths ++ [normalized]
    entrypointFound := x.entrypointFound || decide (entrypoint = some normalized)
    texFound := x.texFound || decide (extension = ".tex".toList) }

end Files

section Archive

/-- One turn of the loop. -/
def extractEntry (request : ExtractRequest) (entrypoint : Option Text) (entry : ZipEntry) (x : Extracted) :
    Extraction Extracted := do
  assertLocalHeader entry
  let normalized ← Process.ofExcept (normalizeEntry request.limits entry.fileName)
  let duplicateKey := request.fold normalized
  require (duplicateKey ∉ x.seen) .duplicatePath
  let canonicalNames ← Process.ofExcept (recordNames request.fold (componentPaths normalized) x.canonicalNames)
  Process.ofExcept (assertEntryType entry normalized)
  let x := { x with seen := x.seen ++ [duplicateKey], canonicalNames }
  if namesDirectory normalized then pure x else extractFile request entrypoint entry normalized x

/-- The loop over the entries. -/
def extractEntries (request : ExtractRequest) (entrypoint : Option Text) : List ZipEntry → Extracted → Extraction Extracted
  | [], x => do
    changeCall .nextEntry .invalidDirectory (fun _ => true) id
    pure x
  | entry :: rest, x => do
    changeCall .nextEntry .invalidDirectory (fun _ => true) id
    let entries := x.entries + 1
    require (entries ≤ request.limits.maxEntries) .tooManyEntries
    let x ← extractEntry request entrypoint entry { x with entries }
    extractEntries request entrypoint rest x

/-- What is tried once the archive is open. -/
def extractArchive (request : ExtractRequest) (entrypoint : Option Text) (archive : List ZipEntry) :
    Extraction ExtractResult := do
  let x ← extractEntries request entrypoint archive .start
  match entrypoint with
  | some path => require (x.entrypointFound = true) (.entrypointMissing path)
  | none => require (x.texFound = true) .texMissing
  pure { files := x.files, bytes := x.bytes, paths := x.paths }

/-- The entrypoint that is asked for, if one is. -/
def requestedPath (request : ExtractRequest) : Except ZipError (Option Text) :=
  if request.requestedEntrypoint = [] then .ok none
  else (validateEntrypointPath request.toLowerCase request.limits request.requestedEntrypoint).map some

def closeArchive : Extraction Unit := do
  mark .closeZip fun s => { s with zipOpen := false }
  changeCall .closeZipHandle .io (fun _ => true) fun s => { s with zipHandle := false }

def validateAndExtract (request : ExtractRequest) (archive : List ZipEntry) : Extraction ExtractResult := do
  changeCall .mkdirDestination .io (fun _ => true) fun s => { s with destination := true }
  changeCall .chmodDestination .io (fun _ => true) id
  changeCall .realpathDestination .io (fun _ => true) id
  changeCall .openZip .invalidZip (fun _ => true) fun s => { s with zipOpen := true }
  changeCall .openZipHandle .io (fun _ => true) fun s => { s with zipHandle := true }
  let entrypoint ← Process.ofExcept (requestedPath request)
  let result ← outcome (extractArchive request entrypoint archive)
  match result with
  | .ok result =>
    closeArchive
    pure result
  | .error error =>
    let removed ← outcome (changeCall .rm .io (fun _ => true) ExtractState.rm)
    closeArchive
    match removed with
    | .ok _ => throw error
    | .error failure => throw failure

end Archive

end LatexRenderer
